/-!
# Event and command kinds

The daemon's notifications come in a closed set of kinds and its commands in a closed set of
names. Each kind has one wire name, lowercase words joined by `_`; reading a wire name accepts
exactly the names written, compared exactly, and nothing else.
-/

namespace DaemonBridge

/-- The kinds of notification the daemon sends, in the order the protocol lists them. -/
inductive EventKind where
  | serviceInitialized
  | serviceStarting
  | serviceStarted
  | serviceStopping
  | serviceStopped
  | serviceError
  | connected
  | disconnected
  | connectionError
  | connectionLost
  | reconnecting
  | reconnected
  | discoveryStarted
  | serverListFound
  | serverDiscovered
  | discoveryCompleted
  | discoveryTimeout
  | otpNeeded
  | otpValidated
  | otpInvalid
  | otpGenerated
  | sslHandshakeStarted
  | sslHandshakeCompleted
  | sslHandshakeFailed
  | certificateShared
  | certificateReceived
  | serverChoiceNeeded
  | serverChoiceMade
  | clientConnected
  | clientDisconnected
  | clientAuthenticated
  | clientAdded
  | clientRemoved
  | clientUpdated
  | streamEnabled
  | streamDisabled
  | streamsUpdated
  | configLoaded
  | configSaved
  | configUpdated
  | configError
  | stateChanged
  | modeChanged
  | screenChanged
  | screenTransitionStarted
  | screenTransitionCompleted
  | fileTransferStarted
  | fileTransferProgress
  | fileTransferCompleted
  | fileTransferFailed
  | clipboardSynced
  | networkLatencyHigh
  | networkQualityDegraded
  | networkQualityRestored
  | statusUpdate
  | info
  | warning
  | error
  | test
  | pong
  | commandSuccess
  | commandError
  deriving DecidableEq, Repr, Inhabited

/-- The commands the daemon accepts, in the order the protocol lists them. -/
inductive CommandKind where
  | serviceChoice
  | startServer
  | stopServer
  | startClient
  | stopClient
  | status
  | serverStatus
  | clientStatus
  | getServerConfig
  | setServerConfig
  | getClientConfig
  | setClientConfig
  | saveConfig
  | reloadConfig
  | enableStream
  | disableStream
  | getStreams
  | addClient
  | removeClient
  | editClient
  | listClients
  | enableSsl
  | disableSsl
  | shareCertificate
  | receiveCertificate
  | setOtp
  | checkServerChoiceNeeded
  | getFoundServers
  | chooseServer
  | checkOtpNeeded
  | discoverServices
  | shutdown
  | ping
  deriving DecidableEq, Repr, Inhabited

namespace EventKind

/-- Every kind, in protocol order. -/
def all : List EventKind :=
  [.serviceInitialized, .serviceStarting, .serviceStarted, .serviceStopping, .serviceStopped,
  .serviceError, .connected, .disconnected, .connectionError, .connectionLost, .reconnecting,
  .reconnected, .discoveryStarted, .serverListFound, .serverDiscovered, .discoveryCompleted,
  .discoveryTimeout, .otpNeeded, .otpValidated, .otpInvalid, .otpGenerated, .sslHandshakeStarted,
  .sslHandshakeCompleted, .sslHandshakeFailed, .certificateShared, .certificateReceived,
  .serverChoiceNeeded, .serverChoiceMade, .clientConnected, .clientDisconnected,
  .clientAuthenticated, .clientAdded, .clientRemoved, .clientUpdated, .streamEnabled,
  .streamDisabled, .streamsUpdated, .configLoaded, .configSaved, .configUpdated, .configError,
  .stateChanged, .modeChanged, .screenChanged, .screenTransitionStarted,
  .screenTransitionCompleted, .fileTransferStarted, .fileTransferProgress, .fileTransferCompleted,
  .fileTransferFailed, .clipboardSynced, .networkLatencyHigh, .networkQualityDegraded,
  .networkQualityRestored, .statusUpdate, .info, .warning, .error, .test, .pong, .commandSuccess,
  .commandError]

/-- The name of a kind on the wire. -/
def wireName : EventKind → String
  | .serviceInitialized => "service_initialized"
  | .serviceStarting => "service_starting"
  | .serviceStarted => "service_started"
  | .serviceStopping => "service_stopping"
  | .serviceStopped => "service_stopped"
  | .serviceError => "service_error"
  | .connected => "connected"
  | .disconnected => "disconnected"
  | .connectionError => "connection_error"
  | .connectionLost => "connection_lost"
  | .reconnecting => "reconnecting"
  | .reconnected => "reconnected"
  | .discoveryStarted => "discovery_started"
  | .serverListFound => "server_list_found"
  | .serverDiscovered => "server_discovered"
  | .discoveryCompleted => "discovery_completed"
  | .discoveryTimeout => "discovery_timeout"
  | .otpNeeded => "otp_needed"
  | .otpValidated => "otp_validated"
  | .otpInvalid => "otp_invalid"
  | .otpGenerated => "otp_generated"
  | .sslHandshakeStarted => "ssl_handshake_started"
  | .sslHandshakeCompleted => "ssl_handshake_completed"
  | .sslHandshakeFailed => "ssl_handshake_failed"
  | .certificateShared => "certificate_shared"
  | .certificateReceived => "certificate_received"
  | .serverChoiceNeeded => "server_choice_needed"
  | .serverChoiceMade => "server_choice_made"
  | .clientConnected => "client_connected"
  | .clientDisconnected => "client_disconnected"
  | .clientAuthenticated => "client_authenticated"
  | .clientAdded => "client_added"
  | .clientRemoved => "client_removed"
  | .clientUpdated => "client_updated"
  | .streamEnabled => "stream_enabled"
  | .streamDisabled => "stream_disabled"
  | .streamsUpdated => "streams_updated"
  | .configLoaded => "config_loaded"
  | .configSaved => "config_saved"
  | .configUpdated => "config_updated"
  | .configError => "config_error"
  | .stateChanged => "state_changed"
  | .modeChanged => "mode_changed"
  | .screenChanged => "screen_changed"
  | .screenTransitionStarted => "screen_transition_started"
  | .screenTransitionCompleted => "screen_transition_completed"
  | .fileTransferStarted => "file_transfer_started"
  | .fileTransferProgress => "file_transfer_progress"
  | .fileTransferCompleted => "file_transfer_completed"
  | .fileTransferFailed => "file_transfer_failed"
  | .clipboardSynced => "clipboard_synced"
  | .networkLatencyHigh => "network_latency_high"
  | .networkQualityDegraded => "network_quality_degraded"
  | .networkQualityRestored => "network_quality_restored"
  | .statusUpdate => "status_update"
  | .info => "info"
  | .warning => "warning"
  | .error => "error"
  | .test => "test"
  | .pong => "pong"
  | .commandSuccess => "command_success"
  | .commandError => "command_error"

/-- The kind a wire name names, if any. -/
def ofWireName? (name : String) : Option EventKind :=
  all.find? (·.wireName == name)

/-- Command results: the answers to a command, which name the command they answer. -/
def isCommandResult : EventKind → Bool
  | .commandSuccess | .commandError => true
  | _ => false

end EventKind

namespace CommandKind

/-- Every command, in protocol order. -/
def all : List CommandKind :=
  [.serviceChoice, .startServer, .stopServer, .startClient, .stopClient, .status, .serverStatus,
  .clientStatus, .getServerConfig, .setServerConfig, .getClientConfig, .setClientConfig,
  .saveConfig, .reloadConfig, .enableStream, .disableStream, .getStreams, .addClient,
  .removeClient, .editClient, .listClients, .enableSsl, .disableSsl, .shareCertificate,
  .receiveCertificate, .setOtp, .checkServerChoiceNeeded, .getFoundServers, .chooseServer,
  .checkOtpNeeded, .discoverServices, .shutdown, .ping]

/-- The name of a command on the wire. -/
def wireName : CommandKind → String
  | .serviceChoice => "service_choice"
  | .startServer => "start_server"
  | .stopServer => "stop_server"
  | .startClient => "start_client"
  | .stopClient => "stop_client"
  | .status => "status"
  | .serverStatus => "server_status"
  | .clientStatus => "client_status"
  | .getServerConfig => "get_server_config"
  | .setServerConfig => "set_server_config"
  | .getClientConfig => "get_client_config"
  | .setClientConfig => "set_client_config"
  | .saveConfig => "save_config"
  | .reloadConfig => "reload_config"
  | .enableStream => "enable_stream"
  | .disableStream => "disable_stream"
  | .getStreams => "get_streams"
  | .addClient => "add_client"
  | .removeClient => "remove_client"
  | .editClient => "edit_client"
  | .listClients => "list_clients"
  | .enableSsl => "enable_ssl"
  | .disableSsl => "disable_ssl"
  | .shareCertificate => "share_certificate"
  | .receiveCertificate => "receive_certificate"
  | .setOtp => "set_otp"
  | .checkServerChoiceNeeded => "check_server_choice_needed"
  | .getFoundServers => "get_found_servers"
  | .chooseServer => "choose_server"
  | .checkOtpNeeded => "check_otp_needed"
  | .discoverServices => "discover_services"
  | .shutdown => "shutdown"
  | .ping => "ping"

/-- The command a wire name names, if any. -/
def ofWireName? (name : String) : Option CommandKind :=
  all.find? (·.wireName == name)

end CommandKind

example : EventKind.all.length = 62 ∧ CommandKind.all.length = 33 := by decide
example : EventKind.ofWireName? "ssl_handshake_started" = some .sslHandshakeStarted := by decide
example : EventKind.ofWireName? "Pong" = none := by decide

end DaemonBridge
