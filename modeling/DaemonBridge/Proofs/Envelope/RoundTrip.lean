import Mathlib
import DaemonBridge.Envelope
import DaemonBridge.Proofs.Json.Records
import DaemonBridge.Proofs.WireNames

/-!
# Envelope text round trip

The round trip is proved over the JSON text format as a parameter (`Json.Text`), under the one
thing it takes of the format: that it reads back the notifications it writes
(`Text.ReadsNotifications`). In every such format an envelope read from a line reads back from
the line it is written as, and writing an envelope and reading its line back gives the envelope
again exactly when two things hold (`render_reads_back_iff`). A command result names its command
and carries a payload or a message; otherwise the check refuses it. And the payload survives
being merged with the command (`PayloadKept`): it is absent, an object with members none of
which is named `command`, or, when there is no command to merge in, any document but an object
or `null`.

The standard format reads a notification back only while its line nests no deeper than the
reader's limit, and the line nests one level deeper than its payload. So with it every error
answer reads back, and a success answer reads back exactly when its result nests two levels
below the limit (`commandSuccess_reads_back_iff`).
-/

namespace DaemonBridge

namespace Json

/-- Setting a member of a readable object to a string keeps it readable. -/
theorem Value.Readable.insert_string {fs : Fields} (h : (Value.object fs).Readable) (k s : String) :
    (Value.object (Fields.insert fs k (.string s))).Readable := by
  obtain ⟨hc, hf⟩ := h
  cases hc with
  | object hsorted hmembers =>
    refine ⟨.object (Fields.pairwise_insert hsorted) fun kv hkv => ?_, fun x hx => ?_⟩
    · rcases Fields.mem_insert hkv with rfl | hkv
      · exact .string s
      · exact hmembers kv hkv
    · rw [Value.floats, Value.mem_floatsFields] at hx
      obtain ⟨kv, hkv, hx⟩ := hx
      rcases Fields.mem_insert hkv with rfl | hkv
      · simp [Value.floats] at hx
      · exact hf x (Value.mem_floatsFields.2 ⟨kv, hkv, hx⟩)

/-- A readable document alone under a key is a readable object. -/
theorem Value.Readable.singleton {v : Value} (h : v.Readable) (k : String) :
    (Value.object [(k, v)]).Readable := by
  refine ⟨.object (List.pairwise_singleton _ _) fun kv hkv => ?_, fun x hx => ?_⟩
  · rw [List.mem_singleton.mp hkv]
    exact h.1
  · simp only [Value.floats, Value.floatsFields, List.append_nil] at hx
    exact h.2 x hx

end Json

end DaemonBridge

namespace DaemonBridge

open Json Reader

/-! ## Splitting the command out -/

/-- The rest of an object's data stays the payload exactly when the object has members and none of
them is named `command`. -/
theorem splitCommand_object_payload {fs : Fields} :
    (splitCommand (some (.object fs))).2 = some (.object fs) ↔
      fs ≠ [] ∧ "command" ∉ fs.map Prod.fst := by
  simp only [splitCommand]
  split_ifs with hempty
  · simp only [false_iff, not_and, not_not]
    intro hne
    by_contra hk
    rw [Fields.erase_eq_self_iff.2 hk] at hempty
    exact hne (List.isEmpty_iff.mp hempty)
  · simp only [Option.some.injEq, Value.object.injEq, Fields.erase_eq_self_iff]
    refine ⟨fun hk => ⟨?_, hk⟩, And.right⟩
    rintro rfl
    simp [Fields.erase] at hempty

theorem splitCommand_object_name {fs : Fields} (h : "command" ∉ fs.map Prod.fst) :
    (splitCommand (some (.object fs))).1 = none := by
  simp [splitCommand, Fields.get?_eq_none h]

/-- Data a command was merged into splits back into the command's name and the rest it was merged
into. -/
theorem splitCommand_insert (fs : Fields) (s : String) :
    splitCommand (some (.object (Fields.insert fs "command" (.string s)))) =
      (some s, (splitCommand (some (.object fs))).2) := by
  simp [splitCommand]

namespace Envelope

/-- A payload that comes back from the line it is written on: none; an object with members, none
of them named `command`; or, with no command to merge into it, any other document but `null`. -/
def PayloadKept (command : Option CommandKind) : Option Value → Prop
  | none => True
  | some (.object fs) => fs ≠ [] ∧ "command" ∉ fs.map Prod.fst
  | some .null => False
  | some _ => command = none

instance (command : Option CommandKind) : ∀ p, Decidable (PayloadKept command p)
  | none => inferInstanceAs (Decidable True)
  | some (.object _) => inferInstanceAs (Decidable (_ ∧ _))
  | some .null => inferInstanceAs (Decidable False)
  | some (.bool _) | some (.number _) | some (.string _) | some (.array _) =>
    inferInstanceAs (Decidable (command = none))

example : ¬ PayloadKept (some .status) (some (.string "done")) := by decide

/-- A wire notification checks out exactly when its kind is known and, for a command result, its
command is known and a payload or a message is present; the envelope then takes the command and
payload split out of the data and the other fields as they are. -/
theorem ofWire_eq_ok_iff {w : WireEvent} {e : Envelope} :
    ofWire w = .ok e ↔ ∃ kind, EventKind.ofWireName? w.eventType = some kind ∧
      (kind.isCommandResult = true →
        ((splitCommand w.data).1.bind CommandKind.ofWireName?).isSome ∧
          ((splitCommand w.data).2.isSome ∨ w.message.isSome)) ∧
      e = ⟨kind, (splitCommand w.data).1.bind CommandKind.ofWireName?, (splitCommand w.data).2,
        w.message, w.source, w.timestamp⟩ := by
  rcases hs : splitCommand w.data with ⟨name, rest⟩
  unfold ofWire
  cases hk : EventKind.ofWireName? w.eventType with
  | none => simp [throw, throwThe, MonadExceptOf.throw]
  | some k =>
    cases hr : k.isCommandResult with
    | false =>
      simp [hs, hr, pure, Except.pure]
      exact eq_comm
    | true =>
      -- a command result passes the three checks in turn, each with an error of its own
      cases name with
      | none => simp [hs, hr, throw, throwThe, MonadExceptOf.throw, bind, Except.bind]
      | some n =>
        cases hc : CommandKind.ofWireName? n with
        | none => simp [hs, hr, hc, throw, throwThe, MonadExceptOf.throw, bind, Except.bind]
        | some c =>
          by_cases hm : rest = none ∧ w.message = none
          · simp [hs, hr, hc, hm, throw, throwThe, MonadExceptOf.throw]
          · have hsome : rest.isSome = true ∨ w.message.isSome = true := by
              rw [not_and_or] at hm
              exact hm.imp Option.ne_none_iff_isSome.mp Option.ne_none_iff_isSome.mp
            simp [hs, hr, hc, hm, hsome, pure, Except.pure]
            exact eq_comm

/-- The command and payload read back from an envelope's line are its own exactly when the payload
is kept. -/
theorem splitCommand_toWire_iff (e : Envelope) :
    ((splitCommand e.toWire.normalize.data).1.bind CommandKind.ofWireName? = e.command ∧
      (splitCommand e.toWire.normalize.data).2 = e.payload) ↔
    PayloadKept e.command e.payload := by
  obtain ⟨kind, command, payload, message, source, timestamp⟩ := e
  cases payload with
  | none =>
    cases command <;>
      simp [toWire, WireEvent.normalize, splitCommand, PayloadKept, Value.toOption,
        CommandKind.ofWireName?_wireName, Fields.insert, Fields.get?, Fields.erase]
  | some p =>
    cases p with
    | object fs =>
      cases command with
      | none =>
        simp only [toWire, WireEvent.normalize, Option.bind_some, Value.toOption, PayloadKept]
        rw [← splitCommand_object_payload]
        refine ⟨And.right, fun h => ⟨?_, h⟩⟩
        rw [splitCommand_object_name (splitCommand_object_payload.1 h).2]
        rfl
      | some c =>
        simp only [toWire, WireEvent.normalize, Option.bind_some, Value.toOption, PayloadKept,
          splitCommand_insert, CommandKind.ofWireName?_wireName, true_and]
        exact splitCommand_object_payload
    | null | bool _ | number _ | string _ | array _ =>
      -- a document that is not an object goes under result, or alone with no command
      cases command <;>
        simp only [toWire, WireEvent.normalize, Option.bind_some, Value.toOption,
          splitCommand_insert] <;>
        simp [splitCommand, PayloadKept, Fields.erase]

/-- An envelope is checked back out of its wire notification, read as its line gives it, exactly
when a command result names its command and carries a payload or a message, and the payload is
kept. -/
theorem ofWire_toWire_iff (e : Envelope) :
    ofWire e.toWire.normalize = .ok e ↔
      (e.kind.isCommandResult = true → e.command.isSome ∧ (e.payload.isSome ∨ e.message.isSome)) ∧
      PayloadKept e.command e.payload := by
  have hkind : EventKind.ofWireName? e.toWire.normalize.eventType = some e.kind :=
    EventKind.ofWireName?_wireName e.kind
  rw [ofWire_eq_ok_iff, ← splitCommand_toWire_iff, hkind]
  constructor
  · rintro ⟨kind, hk, hres, he⟩
    obtain rfl := Option.some.inj hk
    have hc := congrArg Envelope.command he
    have hp := congrArg Envelope.payload he
    dsimp only at hc hp
    rw [← hc, ← hp] at hres
    exact ⟨hres, hc.symm, hp.symm⟩
  · rintro ⟨hres, hc, hp⟩
    refine ⟨e.kind, rfl, by rw [hc, hp]; exact hres, ?_⟩
    rw [hc, hp]
    rfl

/-- The data of an envelope's notification is readable when its payload is. -/
theorem readable_toWire_data (e : Envelope) (hp : ∀ p ∈ e.payload, p.Readable) :
    ∀ v ∈ e.toWire.data, v.Readable := by
  obtain ⟨kind, command, payload, message, source, timestamp⟩ := e
  intro v hv
  cases command with
  | none =>
    cases payload with
    | none => simp [toWire] at hv
    | some p =>
      obtain rfl : p = v := Option.some.inj hv
      exact hp p rfl
  | some c =>
    simp only [toWire, Option.mem_def, Option.some.injEq] at hv
    subst hv
    apply Value.Readable.insert_string
    cases payload with
    | none => exact ⟨.object List.Pairwise.nil (by simp), by simp [Value.floats, Value.floatsFields]⟩
    | some p =>
      cases p with
      | object fs => exact hp _ rfl
      | null | bool _ | number _ | string _ | array _ => exact (hp _ rfl).singleton "result"

/-- Once the payload is kept, an envelope's line nests one deeper than its payload, and so fits
the reader exactly when the payload nests below its limit. -/
theorem depth_toWire {e : Envelope} (h : PayloadKept e.command e.payload) :
    e.toWire.toValue.depth ≤ nestingLimit ↔ ∀ p ∈ e.payload, p.depth < nestingLimit := by
  obtain ⟨kind, command, payload, message, source, timestamp⟩ := e
  rw [WireEvent.depth_toValue]
  cases payload with
  | none =>
    cases command <;>
      simp [toWire, Value.depth, Value.depthFields, Fields.insert, nestingLimit]
  | some p =>
    cases p with
    | object fs =>
      obtain ⟨-, hk⟩ := h
      cases command <;> simp [toWire, Value.depth, Fields.depthFields_insert hk, nestingLimit]
    | null => exact h.elim
    | bool _ | number _ | string _ | array _ =>
      obtain rfl : command = none := h
      simp [toWire, nestingLimit]

/-- What splitting the command out of data other than `null` leaves is kept. -/
theorem payloadKept_splitCommand {data : Option Value} (h : data ≠ some .null) :
    PayloadKept ((splitCommand data).1.bind CommandKind.ofWireName?) (splitCommand data).2 := by
  rcases data with _ | v
  · trivial
  · cases v with
    | null => exact absurd rfl h
    | object fs =>
      simp only [splitCommand]
      split_ifs with hempty
      · trivial
      · refine ⟨fun hnil => hempty (List.isEmpty_iff.mpr hnil), ?_⟩
        simp [Fields.erase]
    | bool _ | number _ | string _ | array _ => rfl

/-- An envelope read from a line, in any text format, is one whose command result names its
command and carries a payload or a message, and whose payload is kept. -/
theorem parseIn_conditions {text : Text} {line : String} {e : Envelope}
    (h : parseIn text line = .ok e) :
    (e.kind.isCommandResult = true → e.command.isSome ∧ (e.payload.isSome ∨ e.message.isSome)) ∧
      PayloadKept e.command e.payload := by
  unfold parseIn at h
  split at h
  · rename_i w hw
    -- the record's data comes through `Value.toOption`, so it is never `null`
    obtain ⟨c, -, rfl⟩ : ∃ c, text.read WireEvent.shape line = .ok c ∧ WireEvent.ofCanonical c = w := by
      unfold WireEvent.parseIn at hw
      rcases hc : text.read WireEvent.shape line with err | c
      · rw [hc] at hw
        cases hw
      · rw [hc] at hw
        exact ⟨c, rfl, Except.ok.inj hw⟩
    have hdata : (WireEvent.ofCanonical c).data ≠ some .null := by
      simp only [WireEvent.ofCanonical]
      cases ((c.get? "data").getD .null) <;> simp [Value.toOption]
    obtain ⟨kind, -, hres, rfl⟩ := ofWire_eq_ok_iff.mp h
    exact ⟨hres, payloadKept_splitCommand hdata⟩
  · cases h

/-- In a text format that reads back the notifications it writes, reading an envelope's line
back is checking its notification, as the line gives it. -/
theorem parseIn_renderIn {text : Text} (htext : text.ReadsNotifications) (e : Envelope)
    (hp : ∀ p ∈ e.payload, p.Readable) : parseIn text (e.renderIn text) = ofWire e.toWire.normalize := by
  rw [parseIn, renderIn,
    WireEvent.parseIn_renderIn htext _ (e.readable_toWire_data hp) (by simp [toWire])]

/-- In every text format that reads back the notifications it writes, an envelope read from a
line, its payload readable, reads back from the line it is written as; and writing an envelope
with a readable payload and reading the line back gives the envelope again exactly when a command
result names its command and carries a payload or a message, and the payload is kept. -/
theorem render_reads_back_iff {text : Text} (htext : text.ReadsNotifications) :
    (∀ line e, parseIn text line = .ok e → (∀ p ∈ e.payload, p.Readable) →
      parseIn text (e.renderIn text) = .ok e) ∧
    ∀ e : Envelope, (∀ p ∈ e.payload, p.Readable) →
      (parseIn text (e.renderIn text) = .ok e ↔
        (e.kind.isCommandResult = true →
          e.command.isSome ∧ (e.payload.isSome ∨ e.message.isSome)) ∧
        PayloadKept e.command e.payload) := by
  have hiff : ∀ e : Envelope, (∀ p ∈ e.payload, p.Readable) →
      (parseIn text (e.renderIn text) = .ok e ↔
        (e.kind.isCommandResult = true →
          e.command.isSome ∧ (e.payload.isSome ∨ e.message.isSome)) ∧
        PayloadKept e.command e.payload) := fun e hp => by
    rw [parseIn_renderIn htext e hp, ofWire_toWire_iff]
  exact ⟨fun _ e hline hp => (hiff e hp).2 (parseIn_conditions hline), hiff⟩

/-- With the reader that has no nesting limit, an error answer reads back from its line. -/
theorem render_reads_back_command_error :
    Text.unlimited.ReadsNotifications ∧
      parseIn Text.unlimited ((commandError .status "boom").renderIn Text.unlimited) =
        .ok (commandError .status "boom") := by
  have hp : ∀ p ∈ (commandError .status "boom").payload, p.Readable := by
    rintro p ⟨⟩
    exact Value.Readable.singleton ⟨.string _, by simp [Value.floats]⟩ "error"
  exact ⟨Text.unlimited_readsNotifications,
    ((render_reads_back_iff Text.unlimited_readsNotifications).2 _ hp).2
      ⟨fun _ => ⟨rfl, .inl rfl⟩, by decide⟩⟩

/-! ## The standard format -/

/-- With the standard format, reading an envelope's line back is checking its notification, as
the line gives it, when the line nests no deeper than the reader allows. -/
theorem parse_render_eq (e : Envelope) (hp : ∀ p ∈ e.payload, p.Readable)
    (hd : e.toWire.toValue.depth ≤ nestingLimit) : parse e.render = ofWire e.toWire.normalize := by
  have hwire : WireEvent.parseIn .standard (e.toWire.renderIn .standard) = .ok e.toWire.normalize :=
    WireEvent.parse_render _ (e.readable_toWire_data hp) (by simp [toWire]) hd
  rw [parse, render, parseIn, renderIn, hwire]

/-- With the standard format, an envelope whose line nests deeper than the reader allows does
not read back: the line is refused. -/
theorem parse_render_deep (e : Envelope) (hp : ∀ p ∈ e.payload, p.Readable)
    (hd : nestingLimit < e.toWire.toValue.depth) : ∃ err, parse e.render = .error (.json err) := by
  obtain ⟨err, h⟩ :=
    WireEvent.parse_render_deep _ (e.readable_toWire_data hp) (by simp [toWire]) hd
  have hwire : WireEvent.parseIn .standard (e.toWire.renderIn .standard) = .error err := h
  exact ⟨err, by rw [parse, render, parseIn, renderIn, hwire]⟩

/-- With the standard format, an envelope whose command and payload come back reads back from its
line exactly when its payload nests below the reader's limit. -/
theorem reads_back_iff_fits (e : Envelope) (hp : ∀ p ∈ e.payload, p.Readable)
    (hres : e.kind.isCommandResult = true → e.command.isSome ∧ (e.payload.isSome ∨ e.message.isSome))
    (hkept : PayloadKept e.command e.payload) :
    parse e.render = .ok e ↔ ∀ p ∈ e.payload, p.depth < nestingLimit := by
  by_cases hd : e.toWire.toValue.depth ≤ nestingLimit
  · rw [parse_render_eq e hp hd, ofWire_toWire_iff]
    exact ⟨fun _ => (depth_toWire hkept).1 hd, fun _ => ⟨hres, hkept⟩⟩
  · -- the line is refused, and a payload that fits would make it fit
    obtain ⟨err, herr⟩ := parse_render_deep e hp (Nat.lt_of_not_le hd)
    simp only [herr, reduceCtorEq, false_iff]
    exact fun hdepth => hd ((depth_toWire hkept).2 hdepth)

/-- With the standard format, every error answer reads back from its line. -/
theorem commandError_reads_back (c : CommandKind) (error : String) :
    parse (commandError c error).render = .ok (commandError c error) := by
  have hp : ∀ p ∈ (commandError c error).payload, p.Readable := by
    rintro p ⟨⟩
    exact Value.Readable.singleton ⟨.string _, by simp [Value.floats]⟩ "error"
  have hkept : PayloadKept (commandError c error).command (commandError c error).payload := by
    simp [commandError, withPayload, withMessage, withCommand, PayloadKept]
  rw [reads_back_iff_fits _ hp (fun _ => ⟨rfl, .inl rfl⟩) hkept]
  rintro p ⟨⟩
  simp [Value.depth, Value.depthFields, nestingLimit]

/-- With the standard format, a success answer reads back from its line exactly when its result,
if it has one, nests two levels less than the reader allows: the payload holds the result one
level down, and the line holds the payload. -/
theorem commandSuccess_reads_back_iff (c : CommandKind) (message : String) (result : Option Value)
    (hr : ∀ v ∈ result, v.Readable) :
    parse (commandSuccess c message result).render = .ok (commandSuccess c message result) ↔
      ∀ v ∈ result, v.depth + 1 < nestingLimit := by
  cases result with
  | none =>
    rw [reads_back_iff_fits (commandSuccess c message none) (by rintro p ⟨⟩)
      (fun _ => ⟨rfl, .inr rfl⟩) trivial]
    simp [commandSuccess, withMessage, withCommand, new]
  | some v =>
    have hp : ∀ p ∈ (commandSuccess c message (some v)).payload, p.Readable := by
      rintro p ⟨⟩
      exact (hr v rfl).singleton "result"
    have hkept : PayloadKept (commandSuccess c message (some v)).command
        (commandSuccess c message (some v)).payload := by
      simp [commandSuccess, withPayload, withMessage, withCommand, PayloadKept]
    rw [reads_back_iff_fits _ hp (fun _ => ⟨rfl, .inl rfl⟩) hkept]
    simp [commandSuccess, withPayload, Value.depth, Value.depthFields]

end Envelope

end DaemonBridge
