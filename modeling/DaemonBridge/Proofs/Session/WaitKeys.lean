import Mathlib
import DaemonBridge.Session.Script

/-!
# Wait keys

A command's wait is registered under `command:<command>:<identifier>`, the identifier being
shaped like a UUID whose last group spells the wait's number in hexadecimal. This module shows
what the correlator relies on when it releases a wait by its key:

* `waitKeyOf_inj`: two waits with different numbers never share a key, whatever their commands;
* the other keys a session registers (`errors:…`, `mode:…`, `roster:…`) are never wait keys,
  since a wait key starts with `c`.

The number is read back from the last group: it is the only part of the key with no `-`.
-/

namespace DaemonBridge

namespace Session

/-- A key that some command's wait is registered under. -/
def IsWaitKey (key : String) : Prop := ∃ c w, key = waitKeyOf c w

/-- The value of a lowercase hexadecimal digit. -/
def hexDigitValue (c : Char) : Nat :=
  if c.toNat < 'a'.toNat then c.toNat - '0'.toNat else c.toNat - 'a'.toNat + 10

/-- The number that hexadecimal digits spell, after the number `acc` read so far. -/
def hexValueFrom (acc : Nat) (l : List Char) : Nat :=
  l.foldl (fun n c => 16 * n + hexDigitValue c) acc

theorem hexDigitValue_digitChar : ∀ n < 16, hexDigitValue (Nat.digitChar n) = n := by
  decide

theorem hexValueFrom_replicate_zero (k : Nat) (l : List Char) :
    hexValueFrom 0 (List.replicate k '0' ++ l) = hexValueFrom 0 l := by
  induction k with
  | zero => rfl
  | succ k ih => exact ih

theorem hexValueFrom_toDigits (n : Nat) : hexValueFrom 0 (Nat.toDigits 16 n) = n := by
  induction n using Nat.strong_induction_on with
  | _ n ih =>
    rw [Nat.toDigits_eq_if (by decide)]
    split
    · next h => simp [hexValueFrom, hexDigitValue_digitChar n h]
    · next h =>
      have hlt : n / 16 < n := Nat.div_lt_self (by omega) (by decide)
      have hd := hexDigitValue_digitChar (n % 16) (Nat.mod_lt n (by decide))
      simp only [hexValueFrom, List.foldl_append, List.foldl_cons, List.foldl_nil] at ih ⊢
      rw [ih _ hlt, hd]
      omega

/-- The identifier's last group gives its number back. -/
theorem hexWidth_inj {width n m : Nat} (h : hexWidth width n = hexWidth width m) : n = m := by
  have h' := congrArg (fun t => hexValueFrom 0 t.toList) h
  simpa [hexWidth, hexValueFrom_replicate_zero, hexValueFrom_toDigits] using h'

theorem mem_toDigits_hex {c : Char} {n : Nat} (h : c ∈ Nat.toDigits 16 n) :
    ∃ d < 16, c = Nat.digitChar d := by
  induction n using Nat.strong_induction_on with
  | _ n ih =>
    rw [Nat.toDigits_eq_if (by decide)] at h
    split at h
    · next hn => exact ⟨n, hn, List.mem_singleton.mp h⟩
    · next hn =>
      rcases List.mem_append.mp h with h | h
      · exact ih (n / 16) (Nat.div_lt_self (by omega) (by decide)) h
      · exact ⟨n % 16, Nat.mod_lt n (by decide), List.mem_singleton.mp h⟩

theorem dash_not_mem_hexWidth (width n : Nat) : '-' ∉ (hexWidth width n).toList := by
  intro hm
  simp only [hexWidth, String.toList_ofList, List.mem_append, List.mem_replicate] at hm
  rcases hm with ⟨-, h⟩ | h
  · exact absurd h (by decide)
  · obtain ⟨d, hd, hc⟩ := mem_toDigits_hex h
    have : ∀ d < 16, Nat.digitChar d ≠ '-' := by decide
    exact this d hd hc.symm

/-- Lists cut after their last separator: what follows it agrees when the lists do. -/
theorem eq_of_append_sep {a b c d : List Char} {x : Char} (h : a ++ [x] ++ b = c ++ [x] ++ d)
    (hb : x ∉ b) (hd : x ∉ d) : b = d := by
  rcases List.append_eq_append_iff.mp h with ⟨a', hc, rfl⟩ | ⟨c', ha, rfl⟩
  · rcases List.eq_nil_or_concat a' with rfl | ⟨l, y, rfl⟩
    · rfl
    · -- `x` would end `a'`, which starts `b`
      have hc' : c ++ [x] = (a ++ [x] ++ l) ++ [y] := by simp [hc]
      have hxy := (List.append_inj' hc' rfl).2
      simp_all
  · rcases List.eq_nil_or_concat c' with rfl | ⟨l, y, rfl⟩
    · rfl
    · have ha' : a ++ [x] = (c ++ [x] ++ l) ++ [y] := by simp [ha]
      have hxy := (List.append_inj' ha' rfl).2
      simp_all

theorem waitKeyOf_toList (c : CommandKind) (w : Nat) :
    (waitKeyOf c w).toList =
      ("command:" ++ c.wireName ++ ":00000000-0000-4000-8000").toList ++ ['-'] ++
        (hexWidth 12 w).toList := by
  simp [waitKeyOf, String.toList_append]

/-- Distinct waits have distinct keys. -/
theorem waitKeyOf_inj {c c' : CommandKind} {w w' : Nat} (h : waitKeyOf c w = waitKeyOf c' w') :
    w = w' := by
  have h' := congrArg String.toList h
  rw [waitKeyOf_toList, waitKeyOf_toList] at h'
  have hx := eq_of_append_sep h' (dash_not_mem_hexWidth 12 w) (dash_not_mem_hexWidth 12 w')
  exact hexWidth_inj (String.toList_inj.mp hx)

/-- Every wait key starts with `c`. -/
theorem waitKeyOf_head (c : CommandKind) (w : Nat) : (waitKeyOf c w).toList.head? = some 'c' := by
  simp [waitKeyOf, String.toList_append]

/-- A key that does not start with `c` is no wait key. -/
theorem not_isWaitKey {key : String} (h : key.toList.head? ≠ some 'c') : ¬ IsWaitKey key := by
  rintro ⟨c, w, rfl⟩
  exact h (waitKeyOf_head c w)

end Session

end DaemonBridge
