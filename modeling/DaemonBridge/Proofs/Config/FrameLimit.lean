import Mathlib
import DaemonBridge.Config
import DaemonBridge.Proofs.Transport.Steps

/-!
# The frame limit and the machine word

The link reads the daemon's frames with a reader whose limit is the configured frame limit. When
no frame ends in its buffer, the reader compares the buffer's length with the bytes of one
largest frame, `limit + suffixLength + 1`, and discards a longer buffer. The limit is a machine
word, and so is that sum: where it does not fit, the reader traps (`oversizeBound`).

Validation refuses a frame limit only when it is zero (`BridgeConfig.validate_eq_ok_iff`): any
configuration it accepts stays accepted with any other positive limit. So exactly the five
largest limits are accepted and give a reader that traps on the first drain of anything it is
fed (`accepted_frame_limit_traps_iff`). A configuration file that sets the largest limit loads,
and its reader traps on the first chunk of a frame (`largest_frame_limit_traps`).
-/

namespace DaemonBridge

namespace BridgeConfig

variable {c : BridgeConfig}

/-- A configuration is valid exactly when its version is 1, its host is loopback, its port is not
0, neither of its timeouts is 0, and its frame limit is not 0. -/
theorem validate_eq_ok_iff :
    c.validate = .ok () ↔ c.version = 1 ∧ isLoopbackHost c.link.host = true ∧ c.link.port ≠ 0 ∧
      c.link.connectMaxElapsedSecs ≠ 0 ∧ c.commands.timeoutSecs ≠ 0 ∧ c.link.maxFrameLength ≠ 0 := by
  unfold validate currentVersion
  split_ifs <;> simp_all <;> omega

end BridgeConfig

/-- The five largest frame limits are accepted and make the link's reader trap: among the
configurations that differ from an accepted one in their frame limit alone, those that are
accepted and whose reader traps on the first drain of any chunk are exactly those whose limit is
above `maxWord - suffixLength - 1`. -/
theorem accepted_frame_limit_traps_iff (c : BridgeConfig) (hc : c.validate = .ok ()) (n : Nat) :
    (({ c with link := { c.link with maxFrameLength := n } } : BridgeConfig).validate = .ok () ∧
        ∀ chunk, ((FrameDecoder.new n).push chunk).drain = .error .boundOverflow) ↔
      maxWord - suffixLength - 1 < n := by
  obtain ⟨hv, hh, hp, ht, hs, -⟩ := BridgeConfig.validate_eq_ok_iff.mp hc
  -- the frame limit is the only field that changes, and it is only checked against zero
  have hn : ({ c with link := { c.link with maxFrameLength := n } } : BridgeConfig).validate =
      .ok () ↔ n ≠ 0 := by
    rw [BridgeConfig.validate_eq_ok_iff]
    simp [hv, hh, hp, ht, hs]
  have hword : maxWord - suffixLength - 1 < n ↔ maxWord < n + suffixLength + 1 := by
    rw [maxWord, suffixLength, Nat.pow_eq]
    omega
  rw [hn, hword]
  constructor
  · -- a reader whose bound fits drains the empty chunk without a trap
    rintro ⟨-, htrap⟩
    by_contra hw
    have hnil : (FrameDecoder.new n).drain = .error .boundOverflow := htrap []
    rw [FrameDecoder.drain_of_next_none (FrameDecoder.next_new_of_le (Nat.le_of_not_lt hw))] at hnil
    cases hnil
  · intro hw
    refine ⟨fun h0 => ?_, fun chunk => FrameDecoder.drainFor_overflow hw rfl (Nat.lt_succ_self _)⟩
    rw [h0, maxWord, suffixLength, Nat.pow_eq] at hw
    omega

/-- The default configuration with the smallest limit that traps. -/
theorem accepted_frame_limit_traps_smallest :
    ({} : BridgeConfig).validate = .ok () ∧
      (({ ({} : BridgeConfig) with
            link := { ({} : BridgeConfig).link with maxFrameLength := maxWord - 4 } } :
            BridgeConfig).validate = .ok () ∧
          (∀ chunk, ((FrameDecoder.new (maxWord - 4)).push chunk).drain = .error .boundOverflow) ↔
        maxWord - suffixLength - 1 < maxWord - 4) :=
  ⟨rfl, accepted_frame_limit_traps_iff {} rfl (maxWord - 4)⟩

/-- A configuration file that sets the frame limit to the largest word loads and is valid, and
the reader built with its limit, fed the five letters of a frame and then its length and
newline, traps on the first chunk. -/
theorem largest_frame_limit_traps :
    (BridgeConfig.load "<dir>"
        (some (Utf8.encode "\x7b\"link\":\x7b\"max_frame_length\":18446744073709551615\x7d\x7d"))).toOption =
        some { link := { maxFrameLength := maxWord } } ∧
      ({ link := { maxFrameLength := maxWord } } : BridgeConfig).validate = .ok () ∧
      (FrameDecoder.new maxWord).feed [[0x61, 0x62, 0x63, 0x64, 0x65], [0, 0, 0, 5, 0x0A]] =
        .error .boundOverflow := by
  have hw : maxWord < maxWord + suffixLength + 1 := by omega
  refine ⟨by decide +kernel, rfl, ?_⟩
  rw [FrameDecoder.feed, FrameDecoder.drain,
    FrameDecoder.drainFor_overflow (d := (FrameDecoder.new maxWord).push [0x61, 0x62, 0x63, 0x64, 0x65])
      hw rfl (Nat.lt_succ_self _)]

end DaemonBridge
