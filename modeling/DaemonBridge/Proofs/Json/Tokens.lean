import Mathlib
import DaemonBridge.Json.Write
import DaemonBridge.Json.Scan

/-!
# Tokens read back

The scanners read back what the writer writes for a single token:

* a string written by `quote`, whatever it holds, is read back by `Scan.stringBody`
  (`stringBody_escaped`): every escape the writer makes is one the scanner undoes;
* a natural number below `2 ^ 64` written in decimal is read back as that number, and the text
  after a minus sign as the negative integer when it fits 64 signed bits (`number_natText`);
* the number scanner reads a text the same when a comma or a closing bracket follows it
  (`number_delimited`), and what it leaves is always a suffix of what it was given
  (`number_suffix`). These two carry the reading of a double's own text, which this library
  takes as an assumption, over to the same text inside a larger document.

`Scans s cs a rest` says that the scanner `s` reads `a` from `cs` and stops before `rest`, at any
starting offset: offsets only place faults, so they are left existential throughout.
-/

namespace DaemonBridge.Json

/-- Text that may follow a document in compact text: the end, a comma or a closing bracket. -/
def Delimited : List Char → Prop
  | [] => True
  | c :: _ => c = ',' ∨ c = ']' ∨ c = '}'

namespace Scan

/-- The scanner `s` reads `a` from `cs`, from any offset, and stops before `rest`. -/
def Scans {α : Type} (s : List Char → Nat → Scanned α) (cs : List Char) (a : α)
    (rest : List Char) : Prop :=
  ∀ off, ∃ off', s cs off = .ok (a, rest, off')

theorem isDigit_eq_false_of_delimited {c : Char} {cs : List Char} (h : Delimited (c :: cs)) :
    isDigit c = false := by
  rcases h with rfl | rfl | rfl <;> rfl

/-! ## Strings -/

theorem foldl_utf8Size (init : Nat) (cs : List Char) :
    cs.foldl (fun n c => n + c.utf8Size) init = init + byteLength cs := by
  induction cs generalizing init with
  | nil => rfl
  | cons c cs ih =>
    rw [byteLength, List.foldl_cons, List.foldl_cons, ih (init + _), ih (0 + _)]
    omega

theorem byteLength_cons (c : Char) (cs : List Char) :
    byteLength (c :: cs) = c.utf8Size + byteLength cs := by
  rw [byteLength, List.foldl_cons, foldl_utf8Size, Nat.zero_add]

theorem hexVal?_hexDigit : ∀ k, k < 16 → hexVal? (hexDigit k) = some k := by decide

/-- The four hexadecimal digits the writer gives a control character read back as its code. -/
theorem hexQuad_control {n : Nat} (hn : n < 32) (more : List Char) (off : Nat) :
    hexQuad ('0' :: '0' :: hexDigit (n / 16) :: hexDigit (n % 16) :: more) off =
      .ok (n, more, off + 4) := by
  have hhi := hexVal?_hexDigit (n / 16) (by omega)
  have hlo := hexVal?_hexDigit (n % 16) (by omega)
  have hlen : ¬ byteLength ('0' :: '0' :: hexDigit (n / 16) :: hexDigit (n % 16) :: more) < 4 := by
    have h0 := Char.utf8Size_pos '0'
    have h1 := Char.utf8Size_pos (hexDigit (n / 16))
    have h2 := Char.utf8Size_pos (hexDigit (n % 16))
    simp only [byteLength_cons]
    omega
  rw [hexQuad, if_neg hlen]
  simp only [hhi, hlo, show hexVal? '0' = some 0 from rfl]
  congr 2
  omega

theorem unicodeEscape_control {n : Nat} (hn : n < 32) (more : List Char) (off : Nat) :
    unicodeEscape ('0' :: '0' :: hexDigit (n / 16) :: hexDigit (n % 16) :: more) off =
      .ok (Char.ofNat n, more, off + 4) := by
  rw [unicodeEscape, hexQuad_control hn]
  simp only
  rw [if_neg (by omega), if_pos (by omega)]

/-- A backslash and a letter that `simpleEscape?` maps to `c` read back as `c`. -/
theorem stringBody_simpleEscape {e c : Char} (he : simpleEscape? e = some c) (acc more : List Char)
    (off : Nat) : stringBody acc ('\\' :: e :: more) off = stringBody (c :: acc) more (off + 2) := by
  rw [stringBody]
  simp [he]

/-- Each escape the writer makes stands for its character. -/
theorem stringBody_escapeChar (acc : List Char) (c : Char) (more : List Char) (off : Nat) :
    ∃ off', stringBody acc (escapeChar c ++ more) off = stringBody (c :: acc) more off' := by
  -- the quote, the backslash and the five short escapes are a backslash and a letter that
  -- `simpleEscape?` takes back to the character
  have simple : ∀ e, simpleEscape? e = some c →
      ∃ off', stringBody acc (['\\', e] ++ more) off = stringBody (c :: acc) more off' :=
    fun e he => ⟨off + 2, stringBody_simpleEscape he acc more off⟩
  unfold escapeChar
  by_cases h1 : c = '"'
  · rw [if_pos h1]; exact simple '"' (by rw [h1]; rfl)
  rw [if_neg h1]
  by_cases h2 : c = '\\'
  · rw [if_pos h2]; exact simple '\\' (by rw [h2]; rfl)
  rw [if_neg h2]
  by_cases h3 : c = '\n'
  · rw [if_pos h3]; exact simple 'n' (by rw [h3]; rfl)
  rw [if_neg h3]
  by_cases h4 : c = '\r'
  · rw [if_pos h4]; exact simple 'r' (by rw [h4]; rfl)
  rw [if_neg h4]
  by_cases h5 : c = '\t'
  · rw [if_pos h5]; exact simple 't' (by rw [h5]; rfl)
  rw [if_neg h5]
  by_cases h6 : c.toNat = 8
  · rw [if_pos h6]; exact simple 'b' (by rw [← Char.ofNat_toNat c, h6]; rfl)
  rw [if_neg h6]
  by_cases h7 : c.toNat = 12
  · rw [if_pos h7]; exact simple 'f' (by rw [← Char.ofNat_toNat c, h7]; rfl)
  rw [if_neg h7]
  by_cases h8 : c.toNat < 32
  · -- a control character: a `\u` escape of four hexadecimal digits
    rw [if_pos h8]
    refine ⟨off + 6, ?_⟩
    simp only [List.cons_append, List.nil_append]; rw [stringBody]
    simp [simpleEscape?, unicodeEscape_control h8, Char.ofNat_toNat]
    omega
  · -- any other character stands for itself
    rw [if_neg h8]
    refine ⟨off + c.utf8Size, ?_⟩
    simp only [List.cons_append, List.nil_append]
    rw [stringBody.eq_def]
    simp [h1, h2, h8]

/-- The escaped characters and the closing quote read back as the characters. -/
theorem stringBody_escaped (rest : List Char) :
    ∀ (cs acc : List Char) (off : Nat), ∃ off',
      stringBody acc (cs.flatMap escapeChar ++ '"' :: rest) off =
        .ok (String.ofList (acc.reverse ++ cs), rest, off')
  | [], acc, off => ⟨off + 1, by rw [List.flatMap_nil, List.nil_append, stringBody.eq_def]; simp⟩
  | c :: cs, acc, off => by
    obtain ⟨off₁, h₁⟩ := stringBody_escapeChar acc c (cs.flatMap escapeChar ++ '"' :: rest) off
    obtain ⟨off₂, h₂⟩ := stringBody_escaped rest cs (c :: acc) off₁
    refine ⟨off₂, ?_⟩
    rw [List.flatMap_cons, List.append_assoc, h₁, h₂]
    simp

theorem toList_quote (s : String) :
    (quote s).toList = '"' :: (s.toList.flatMap escapeChar ++ ['"']) := by
  simp [quote]

/-- A quoted string, after its opening quote, scans back as the string. -/
theorem scans_quote (s : String) (rest : List Char) :
    Scans (stringBody []) (s.toList.flatMap escapeChar ++ '"' :: rest) s rest := by
  intro off
  obtain ⟨off', h⟩ := stringBody_escaped rest s.toList [] off
  exact ⟨off', by rw [h]; simp⟩

/-! ## Integers -/

theorem overflows64_eq_false {sig d : Nat} (h : sig * 10 + d < 2 ^ 64) :
    overflows64 sig d = false := by
  simp only [overflows64, Bool.and_eq_false_iff, Bool.or_eq_false_iff, decide_eq_false_iff_not]
  omega

theorem le_ofDigitChars (l : List Char) (init : Nat) : init ≤ Nat.ofDigitChars 10 l init := by
  rw [Nat.ofDigitChars_eq_ofDigitChars_zero]
  have := Nat.one_le_pow l.length 10 (by omega)
  nlinarith

/-- Digits whose value stays below `2 ^ 64` are all taken into the significand. -/
theorem integerDigits_digits (p : Bool) {rest : List Char} (hr : Delimited rest) :
    ∀ (ds : List Char), (∀ c ∈ ds, c.isDigit = true) → ∀ sig off,
      Nat.ofDigitChars 10 ds sig < 2 ^ 64 →
      integerDigits p sig (ds ++ rest) off =
        afterInteger p (Nat.ofDigitChars 10 ds sig) rest (off + ds.length)
  | [], _, sig, off, _ => by
    cases rest with
    | nil => simp [integerDigits]
    | cons c cs => simp [integerDigits, isDigit_eq_false_of_delimited hr]
  | c :: ds, hd, sig, off, hs => by
    have hc : isDigit c = true := hd c (by simp)
    have hstep : Nat.ofDigitChars 10 (c :: ds) sig = Nat.ofDigitChars 10 ds (sig * 10 + digitVal c) := by
      rw [Nat.ofDigitChars_cons, Nat.mul_comm]; rfl
    have hle := le_ofDigitChars ds (sig * 10 + digitVal c)
    have hs' : Nat.ofDigitChars 10 ds (sig * 10 + digitVal c) < 2 ^ 64 := hstep ▸ hs
    rw [hstep, List.cons_append, integerDigits, if_pos hc, overflows64_eq_false (by omega),
      integerDigits_digits p hr ds (fun c' h => hd c' (by simp [h])) _ _ hs']
    simp only [List.length_cons, Bool.false_eq_true, ↓reduceIte]
    congr 1
    omega

/-- After an integer, a character that is no point and no exponent mark ends the number: it
keeps its integer kind. -/
theorem afterInteger_plain (p : Bool) (n : Nat) {cs : List Char}
    (h : ∀ c cs', cs = c :: cs' → c ≠ '.' ∧ c ≠ 'e' ∧ c ≠ 'E') (off : Nat) :
    afterInteger p n cs off =
      if p then .ok (.nat n, cs, off)
      else if 1 ≤ n ∧ n ≤ Nat.pow 2 63 then .ok (.negInt (-(n : Int)), cs, off)
      else .ok (.float (Binary64.ofNat n).neg, cs, off) := by
  unfold afterInteger
  split
  · exact absurd rfl (h _ _ rfl).1
  · exact absurd rfl (h _ _ rfl).2.1
  · exact absurd rfl (h _ _ rfl).2.2
  · rfl

theorem afterInteger_delimited (p : Bool) (n : Nat) {rest : List Char} (hr : Delimited rest)
    (off : Nat) :
    afterInteger p n rest off =
      if p then .ok (.nat n, rest, off)
      else if 1 ≤ n ∧ n ≤ Nat.pow 2 63 then .ok (.negInt (-(n : Int)), rest, off)
      else .ok (.float (Binary64.ofNat n).neg, rest, off) := by
  refine afterInteger_plain p n ?_ off
  rintro c cs rfl
  rcases hr with rfl | rfl | rfl <;> decide

theorem toDigits_head_ne_zero : ∀ (n : Nat), 0 < n → ∀ cs, Nat.toDigits 10 n ≠ '0' :: cs
  | n, hn, cs => by
    rw [Nat.toDigits_eq_if (by omega)]
    split
    · next hlt =>
      have hdig : ∀ k < 10, 0 < k → Nat.digitChar k ≠ '0' := by decide
      intro h
      simp only [List.cons.injEq] at h
      exact hdig n hlt hn h.1
    · next hge =>
      obtain ⟨d, ds, hd⟩ := List.exists_cons_of_ne_nil (Nat.toDigits_ne_nil (b := 10) (n := n / 10))
      rw [hd, List.cons_append]
      intro h
      simp only [List.cons.injEq] at h
      exact toDigits_head_ne_zero (n / 10) (by omega) ds (h.1 ▸ hd)
termination_by n => n
decreasing_by omega

/-- The decimal digits of a number below `2 ^ 64`, then a delimiter, scan as that number. -/
theorem number_toDigits (p : Bool) {n : Nat} (hn : n < 2 ^ 64) {rest : List Char}
    (hr : Delimited rest) (off : Nat) :
    number p (Nat.toDigits 10 n ++ rest) off =
      afterInteger p n rest (off + (Nat.toDigits 10 n).length) := by
  obtain ⟨c, cs, hcs⟩ := List.exists_cons_of_ne_nil (Nat.toDigits_ne_nil (b := 10) (n := n))
  have hdig : ∀ d ∈ Nat.toDigits 10 n, d.isDigit = true :=
    fun d h => Nat.isDigit_of_mem_toDigits (by omega) (by omega) h
  rw [hcs] at hdig ⊢
  by_cases h0 : c = '0'
  · subst h0
    -- a leading zero is the whole of the digits of zero
    have hz : n = 0 := by
      by_contra hne
      exact toDigits_head_ne_zero n (by omega) cs hcs
    subst hz
    have hcs0 : cs = [] := by simpa [Nat.toDigits_zero] using hcs.symm
    subst hcs0
    cases rest with
    | nil => simp [number.eq_def]
    | cons d ds => simp [number.eq_def, isDigit_eq_false_of_delimited hr]
  · have hc : isDigit c = true := hdig c (by simp)
    have hval : Nat.ofDigitChars 10 cs (digitVal c) = n := by
      have h := Nat.ofDigitChars_ten_toDigits (n := n)
      rw [hcs, Nat.ofDigitChars_cons, Nat.mul_zero, Nat.zero_add] at h
      exact h
    rw [List.cons_append, number.eq_def]
    simp only [if_neg h0, if_pos hc]
    rw [integerDigits_digits p hr cs (fun d h => hdig d (by simp [h])) _ _ (hval ▸ hn), hval]
    simp only [List.length_cons]
    congr 1
    omega

theorem toList_natText (n : Nat) : (natText n).toList = Nat.toDigits 10 n := by
  simp [natText]

/-- A natural number below `2 ^ 64`, written in decimal, scans back as that number. -/
theorem scans_natText {n : Nat} (hn : n < 2 ^ 64) {rest : List Char} (hr : Delimited rest) :
    Scans (number true) ((natText n).toList ++ rest) (.nat n) rest := by
  intro off
  refine ⟨off + (Nat.toDigits 10 n).length, ?_⟩
  rw [toList_natText, number_toDigits true hn hr, afterInteger_delimited true n hr, if_pos rfl]

/-- After a minus sign, the digits of a number from `1` to `2 ^ 63` scan back as its negative. -/
theorem scans_negText {n : Nat} (h₁ : 1 ≤ n) (h₂ : n ≤ 2 ^ 63) {rest : List Char}
    (hr : Delimited rest) :
    Scans (number false) ((natText n).toList ++ rest) (.negInt (-(n : Int))) rest := by
  intro off
  refine ⟨off + (Nat.toDigits 10 n).length, ?_⟩
  have hpow : Nat.pow 2 63 = 2 ^ 63 := rfl
  rw [toList_natText, number_toDigits false (by omega) hr, afterInteger_delimited false n hr,
    if_neg Bool.false_ne_true, if_pos ⟨h₁, hpow ▸ h₂⟩]

/-! ## Numbers followed by other text

The number scanner looks one character past a number to see that it has ended. After a
delimiter it sees the same as at the end of the text, so a number read from a text alone is read
the same inside compact text. The offsets only move along with where the text starts. -/

/-- The scanner reads `cs ++ rest`, from an offset `k` further on, as it reads `cs`: it leaves
`rest` more and ends `k` further on, unless it read all of `cs` and `rest` could continue what
it read. -/
def Extends {α : Type} (s : List Char → Nat → Scanned α) : Prop :=
  ∀ cs off a r off', s cs off = .ok (a, r, off') → ∀ rest k, (r = [] → Delimited rest) →
    s (cs ++ rest) (off + k) = .ok (a, r ++ rest, off' + k)

/-- What the scanner leaves is a suffix of what it was given. -/
def LeavesSuffix {α : Type} (s : List Char → Nat → Scanned α) : Prop :=
  ∀ cs off a r off', s cs off = .ok (a, r, off') → r <:+ cs

theorem skipDigits_suffix : ∀ (cs : List Char) (off : Nat), (skipDigits cs off).1 <:+ cs
  | [], _ => List.suffix_refl _
  | c :: cs, off => by
    rw [skipDigits]
    split
    · exact (skipDigits_suffix cs (off + 1)).trans (List.suffix_cons c cs)
    · exact List.suffix_refl _

theorem skipDigits_append (rest : List Char) (k : Nat) : ∀ (cs : List Char) (off : Nat),
    ((skipDigits cs off).1 = [] → Delimited rest) →
      skipDigits (cs ++ rest) (off + k) =
        ((skipDigits cs off).1 ++ rest, (skipDigits cs off).2 + k)
  | [], off, h => by
    cases rest with
    | nil => rfl
    | cons c cs => simp [skipDigits, isDigit_eq_false_of_delimited (h rfl)]
  | c :: cs, off, h => by
    rw [List.cons_append, skipDigits, skipDigits]
    split
    · rw [show off + k + 1 = off + 1 + k by omega]
      exact skipDigits_append rest k cs (off + 1) (by rwa [skipDigits, if_pos ‹_›] at h)
    · rfl

/-- A number made from its parts keeps the text after it and its offset, and does not depend on
them. -/
theorem fromParts_ok {p : Bool} {sig : Nat} {e : Int} {cs : List Char} {off : Nat} {a : Number}
    {r : List Char} {off' : Nat} (h : fromParts p sig e cs off = .ok (a, r, off')) :
    r = cs ∧ off' = off ∧ ∀ cs₂ off₂, fromParts p sig e cs₂ off₂ = .ok (a, cs₂, off₂) := by
  -- a number that is made keeps the text and offset it was given, and does not depend on them
  have hdone : ∀ x : Number, (.ok (x, cs, off) : Scanned Number) = .ok (a, r, off') →
      r = cs ∧ off' = off ∧ ∀ cs₂ off₂, (.ok (x, cs₂, off₂) : Scanned Number) = .ok (a, cs₂, off₂) := by
    intro x hx
    simp only [Except.ok.injEq, Prod.mk.injEq] at hx
    obtain ⟨rfl, rfl, rfl⟩ := hx
    exact ⟨rfl, rfl, fun _ _ => rfl⟩
  have hfail : ∀ f o, (failAt f o : Scanned Number) ≠ .ok (a, r, off') := by
    intro f o hf
    simp [failAt] at hf
  unfold fromParts at h ⊢
  dsimp only at h ⊢
  -- the branches of `fromParts`: a non-negative exponent up to 308, a larger one, a negative one
  by_cases h₀ : 0 ≤ e
  · simp only [if_pos h₀] at h ⊢
    by_cases h₁ : e ≤ 308
    · simp only [if_pos h₁] at h ⊢
      by_cases h₂ : ((Binary64.ofNat sig).mul (Binary64.pow10 e.toNat)).isFinite = true
      · simp only [if_pos h₂] at h ⊢
        exact hdone _ h
      · simp only [if_neg h₂] at h
        exact absurd h (hfail _ _)
    · simp only [if_neg h₁] at h ⊢
      by_cases h₂ : (Binary64.ofNat sig).isZero = true
      · simp only [if_pos h₂] at h ⊢
        exact hdone _ h
      · simp only [if_neg h₂] at h
        exact absurd h (hfail _ _)
  · simp only [if_neg h₀] at h ⊢
    exact hdone _ h

theorem fromParts_extends (p : Bool) (sig : Nat) (e : Int) : Extends (fromParts p sig e) := by
  intro cs off a r off' h rest k _
  obtain ⟨rfl, rfl, hall⟩ := fromParts_ok h
  exact hall _ _

theorem fromParts_suffix (p : Bool) (sig : Nat) (e : Int) : LeavesSuffix (fromParts p sig e) := by
  intro cs off a r off' h
  rw [(fromParts_ok h).1]

theorem exponentOverflow_extends (p z pe : Bool) : Extends (exponentOverflow p z pe) := by
  intro cs off a r off' h rest k hr
  unfold exponentOverflow at h ⊢
  split_ifs at h ⊢
  · cases h
  · cases hs : skipDigits cs off with
    | mk r₀ o₀ =>
      rw [hs] at h
      simp only [Except.ok.injEq, Prod.mk.injEq] at h
      obtain ⟨rfl, rfl, rfl⟩ := h
      rw [skipDigits_append rest k cs off (by rw [hs]; exact hr), hs]

theorem exponentOverflow_suffix (p z pe : Bool) : LeavesSuffix (exponentOverflow p z pe) := by
  intro cs off a r off' h
  unfold exponentOverflow at h
  split_ifs at h
  · cases h
  · cases hs : skipDigits cs off with
    | mk r₀ o₀ =>
      rw [hs] at h
      simp only [Except.ok.injEq, Prod.mk.injEq] at h
      obtain ⟨rfl, rfl, rfl⟩ := h
      have hsuf := skipDigits_suffix cs off
      rwa [hs] at hsuf

theorem exponentDigits_extends (p : Bool) (sig : Nat) (start : Int) (pe : Bool) :
    ∀ e, Extends (exponentDigits p sig start pe e) := by
  intro e cs
  induction cs generalizing e with
  | nil =>
    intro off a r off' h rest k hr
    rw [exponentDigits] at h
    obtain ⟨rfl, rfl, hall⟩ := fromParts_ok h
    cases rest with
    | nil => rw [List.nil_append, exponentDigits]; exact hall _ _
    | cons c cs =>
      rw [List.nil_append, exponentDigits, if_neg (by simp [isDigit_eq_false_of_delimited (hr rfl)])]
      exact hall _ _
  | cons c cs ih =>
    intro off a r off' h rest k hr
    rw [exponentDigits] at h
    rw [List.cons_append, exponentDigits]
    by_cases hd : isDigit c = true
    · rw [if_pos hd] at h ⊢
      rw [show off + k + 1 = off + 1 + k by omega]
      split_ifs at h ⊢
      · exact exponentOverflow_extends p _ pe cs (off + 1) a r off' h rest k hr
      · exact ih _ (off + 1) a r off' h rest k hr
    · rw [if_neg hd] at h ⊢
      exact fromParts_extends p sig _ (c :: cs) off a r off' h rest k hr

theorem exponentDigits_suffix (p : Bool) (sig : Nat) (start : Int) (pe : Bool) :
    ∀ e, LeavesSuffix (exponentDigits p sig start pe e) := by
  intro e cs
  induction cs generalizing e with
  | nil =>
    intro off a r off' h
    rw [exponentDigits] at h
    exact fromParts_suffix p sig _ [] off a r off' h
  | cons c cs ih =>
    intro off a r off' h
    rw [exponentDigits] at h
    by_cases hd : isDigit c = true
    · rw [if_pos hd] at h
      split_ifs at h
      · exact (exponentOverflow_suffix p _ pe cs (off + 1) a r off' h).trans (List.suffix_cons c cs)
      · exact (ih _ (off + 1) a r off' h).trans (List.suffix_cons c cs)
    · rw [if_neg hd] at h
      exact fromParts_suffix p sig _ (c :: cs) off a r off' h

/-- An exponent with no sign. -/
theorem exponentPart_unsigned (p : Bool) (sig : Nat) (start : Int) {c : Char} (h₁ : c ≠ '+')
    (h₂ : c ≠ '-') (cs : List Char) (off : Nat) :
    exponentPart p sig start (c :: cs) off =
      if isDigit c = true then exponentDigits p sig start true (digitVal c) cs (off + 1)
      else failAt .invalidNumber (off + 1) := by
  unfold exponentPart
  split
  next heq =>
    -- the sign patterns do not apply, so the exponent starts at `c`
    split at heq
    · simp_all
    · simp_all
    · simp only [Prod.mk.injEq] at heq
      obtain ⟨rfl, rfl, rfl⟩ := heq
      rfl

theorem exponentPart_extends (p : Bool) (sig : Nat) (start : Int) :
    Extends (exponentPart p sig start) := by
  intro cs off a r off' h rest k hr
  -- after an optional sign, a first digit must come, and the rest is `exponentDigits`
  have digits : ∀ (pe : Bool) (d : Char) (ds : List Char) (o : Nat),
      (if isDigit d = true then exponentDigits p sig start pe (digitVal d) ds (o + 1)
        else failAt .invalidNumber (o + 1)) = .ok (a, r, off') →
      (if isDigit d = true then exponentDigits p sig start pe (digitVal d) (ds ++ rest) (o + k + 1)
        else failAt .invalidNumber (o + k + 1)) = .ok (a, r ++ rest, off' + k) := by
    intro pe d ds o hd
    rw [show o + k + 1 = o + 1 + k by omega]
    split_ifs at hd ⊢
    · exact exponentDigits_extends p sig start pe _ ds (o + 1) a r off' hd rest k hr
    · cases hd
  rcases cs with _ | ⟨c, cs⟩
  · simp [exponentPart, failAt] at h
  by_cases hplus : c = '+'
  · subst hplus
    rcases cs with _ | ⟨d, cs⟩
    · simp [exponentPart, failAt] at h
    simp only [exponentPart, List.cons_append] at h ⊢
    rw [show off + k + 1 = off + 1 + k by omega]
    exact digits true d cs _ h
  by_cases hminus : c = '-'
  · subst hminus
    rcases cs with _ | ⟨d, cs⟩
    · simp [exponentPart, failAt] at h
    simp only [exponentPart, List.cons_append] at h ⊢
    rw [show off + k + 1 = off + 1 + k by omega]
    exact digits false d cs _ h
  rw [exponentPart_unsigned p sig start hplus hminus] at h
  rw [List.cons_append, exponentPart_unsigned p sig start hplus hminus]
  exact digits true c cs _ h

theorem exponentPart_suffix (p : Bool) (sig : Nat) (start : Int) :
    LeavesSuffix (exponentPart p sig start) := by
  intro cs off a r off' h
  have digits : ∀ (pe : Bool) (d : Char) (ds : List Char) (o : Nat),
      (if isDigit d = true then exponentDigits p sig start pe (digitVal d) ds o
        else failAt .invalidNumber o) = .ok (a, r, off') → r <:+ ds := by
    intro pe d ds o hd
    split_ifs at hd
    · exact exponentDigits_suffix p sig start pe _ ds o a r off' hd
    · cases hd
  rcases cs with _ | ⟨c, cs⟩
  · simp [exponentPart, failAt] at h
  by_cases hplus : c = '+'
  · subst hplus
    rcases cs with _ | ⟨d, cs⟩
    · simp [exponentPart, failAt] at h
    simp only [exponentPart] at h
    exact ((digits true d cs _ h).trans (List.suffix_cons d cs)).trans (List.suffix_cons _ _)
  by_cases hminus : c = '-'
  · subst hminus
    rcases cs with _ | ⟨d, cs⟩
    · simp [exponentPart, failAt] at h
    simp only [exponentPart] at h
    exact ((digits false d cs _ h).trans (List.suffix_cons d cs)).trans (List.suffix_cons _ _)
  rw [exponentPart_unsigned p sig start hplus hminus] at h
  exact (digits true c cs _ h).trans (List.suffix_cons c cs)

theorem afterSignificand_plain (p : Bool) (sig : Nat) (e : Int) {cs : List Char}
    (h : ∀ c cs', cs = c :: cs' → c ≠ 'e' ∧ c ≠ 'E') (off : Nat) :
    afterSignificand p sig e cs off = fromParts p sig e cs off := by
  unfold afterSignificand
  split
  · exact absurd rfl (h _ _ rfl).1
  · exact absurd rfl (h _ _ rfl).2
  · rfl

/-- A delimiter continues no number: it is no digit, point or exponent mark. -/
theorem Delimited.not_number {c : Char} {cs : List Char} (h : Delimited (c :: cs)) :
    isDigit c = false ∧ c ≠ '.' ∧ c ≠ 'e' ∧ c ≠ 'E' := by
  rcases h with rfl | rfl | rfl <;> decide

theorem Delimited.plain {rest : List Char} (h : Delimited rest) :
    ∀ c cs', rest = c :: cs' → c ≠ 'e' ∧ c ≠ 'E' := by
  rintro c cs' rfl
  exact ⟨(Delimited.not_number h).2.2.1, (Delimited.not_number h).2.2.2⟩

theorem afterSignificand_extends (p : Bool) (sig : Nat) (e : Int) :
    Extends (afterSignificand p sig e) := by
  intro cs off a r off' h rest k hr
  rcases cs with _ | ⟨c, cs⟩
  · -- nothing after the significand: the delimiter after it is not an exponent either
    rw [afterSignificand_plain p sig e (by simp)] at h
    obtain ⟨rfl, rfl, hall⟩ := fromParts_ok h
    rw [List.nil_append, afterSignificand_plain p sig e (Delimited.plain (hr rfl))]
    exact hall _ _
  by_cases he : c = 'e' ∨ c = 'E'
  · rcases he with rfl | rfl
    · show exponentPart p sig e (cs ++ rest) (off + k + 1) = _
      rw [show off + k + 1 = off + 1 + k by omega]
      exact exponentPart_extends p sig e cs (off + 1) a r off' h rest k hr
    · show exponentPart p sig e (cs ++ rest) (off + k + 1) = _
      rw [show off + k + 1 = off + 1 + k by omega]
      exact exponentPart_extends p sig e cs (off + 1) a r off' h rest k hr
  · have hplain : ∀ (ds : List Char), ∀ c' cs', c :: ds = c' :: cs' → c' ≠ 'e' ∧ c' ≠ 'E' := by
      rintro ds c' cs' heq
      simp only [List.cons.injEq] at heq
      obtain ⟨rfl, -⟩ := heq
      exact not_or.mp he
    rw [afterSignificand_plain p sig e (hplain cs)] at h
    rw [List.cons_append, afterSignificand_plain p sig e (hplain _)]
    exact fromParts_extends p sig e (c :: cs) off a r off' h rest k hr

theorem afterSignificand_suffix (p : Bool) (sig : Nat) (e : Int) :
    LeavesSuffix (afterSignificand p sig e) := by
  intro cs off a r off' h
  rcases cs with _ | ⟨c, cs⟩
  · rw [afterSignificand_plain p sig e (by simp)] at h
    exact fromParts_suffix _ _ _ _ _ _ _ _ h
  by_cases he : c = 'e' ∨ c = 'E'
  · rcases he with rfl | rfl
    · exact (exponentPart_suffix p sig e cs (off + 1) a r off' h).trans (List.suffix_cons _ cs)
    · exact (exponentPart_suffix p sig e cs (off + 1) a r off' h).trans (List.suffix_cons _ cs)
  · rw [afterSignificand_plain p sig e (by
      rintro c' cs' heq
      simp only [List.cons.injEq] at heq
      obtain ⟨rfl, -⟩ := heq
      exact not_or.mp he)] at h
    exact fromParts_suffix _ _ _ _ _ _ _ _ h

theorem fractionDigits_extends (p : Bool) (before : Int) :
    ∀ sig after, Extends (fractionDigits p sig before after) := by
  intro sig after cs
  induction cs generalizing sig after with
  | nil =>
    intro off a r off' h rest k hr
    rw [fractionDigits] at h
    split_ifs at h with h0
    · exact absurd h (by simp [failAt])
    · have hr0 : r = [] := List.suffix_nil.mp (afterSignificand_suffix p sig _ [] off a r off' h)
      subst hr0
      cases rest with
      | nil =>
        rw [List.nil_append, fractionDigits, if_neg h0]
        exact afterSignificand_extends p sig _ [] off a [] off' h [] k hr
      | cons c cs =>
        have hc := Delimited.not_number (hr rfl)
        rw [List.nil_append, fractionDigits, if_neg (by rw [hc.1]; simp), if_neg h0]
        exact afterSignificand_extends p sig _ [] off a [] off' h (c :: cs) k hr
  | cons c cs ih =>
    intro off a r off' h rest k hr
    rw [fractionDigits] at h
    rw [List.cons_append, fractionDigits]
    by_cases hd : isDigit c = true
    · rw [if_pos hd] at h ⊢
      by_cases ho : overflows64 sig (digitVal c) = true
      · -- digits past 64 bits are passed over, then the significand is done
        rw [if_pos ho] at h ⊢
        cases hs : skipDigits (c :: cs) off with
        | mk r₀ o₀ =>
          rw [hs] at h
          have hsuf := afterSignificand_suffix p sig _ r₀ o₀ a r off' h
          have hskip := skipDigits_append rest k (c :: cs) off (by
            rw [hs]; rintro rfl; exact hr (List.suffix_nil.mp hsuf))
          rw [hs, List.cons_append] at hskip
          rw [hskip]
          exact afterSignificand_extends p sig _ r₀ o₀ a r off' h rest k hr
      · rw [if_neg ho] at h ⊢
        rw [show off + k + 1 = off + 1 + k by omega]
        exact ih _ _ (off + 1) a r off' h rest k hr
    · rw [if_neg hd] at h ⊢
      split_ifs at h ⊢
      · exact absurd h (by simp [failAt])
      · exact afterSignificand_extends p sig _ (c :: cs) off a r off' h rest k hr

theorem fractionDigits_suffix (p : Bool) (before : Int) :
    ∀ sig after, LeavesSuffix (fractionDigits p sig before after) := by
  intro sig after cs
  induction cs generalizing sig after with
  | nil =>
    intro off a r off' h
    rw [fractionDigits] at h
    split_ifs at h
    · exact absurd h (by simp [failAt])
    · exact afterSignificand_suffix p sig _ [] off a r off' h
  | cons c cs ih =>
    intro off a r off' h
    rw [fractionDigits] at h
    by_cases hd : isDigit c = true
    · rw [if_pos hd] at h
      by_cases ho : overflows64 sig (digitVal c) = true
      · rw [if_pos ho] at h
        cases hs : skipDigits (c :: cs) off with
        | mk r₀ o₀ =>
          rw [hs] at h
          have hsk := skipDigits_suffix (c :: cs) off
          rw [hs] at hsk
          exact (afterSignificand_suffix p sig _ r₀ o₀ a r off' h).trans hsk
      · rw [if_neg ho] at h
        exact (ih _ _ (off + 1) a r off' h).trans (List.suffix_cons c cs)
    · rw [if_neg hd] at h
      split_ifs at h
      · exact absurd h (by simp [failAt])
      · exact afterSignificand_suffix p sig _ (c :: cs) off a r off' h

theorem longIntegerDigits_extends (p : Bool) (sig : Nat) :
    ∀ e, Extends (longIntegerDigits p sig e) := by
  intro e cs
  induction cs generalizing e with
  | nil =>
    intro off a r off' h rest k hr
    rw [longIntegerDigits] at h
    obtain ⟨rfl, rfl, hall⟩ := fromParts_ok h
    cases rest with
    | nil => rw [List.nil_append, longIntegerDigits]; exact hall _ _
    | cons c cs =>
      have hc := Delimited.not_number (hr rfl)
      rw [List.nil_append, longIntegerDigits, if_neg (by rw [hc.1]; simp), if_neg hc.2.1,
        afterSignificand_plain p sig e (Delimited.plain (hr rfl))]
      exact hall _ _
  | cons c cs ih =>
    intro off a r off' h rest k hr
    rw [longIntegerDigits] at h
    rw [List.cons_append, longIntegerDigits]
    split_ifs at h ⊢
    · rw [show off + k + 1 = off + 1 + k by omega]
      exact ih _ (off + 1) a r off' h rest k hr
    · rw [show off + k + 1 = off + 1 + k by omega]
      exact fractionDigits_extends p e sig 0 cs (off + 1) a r off' h rest k hr
    · exact afterSignificand_extends p sig e (c :: cs) off a r off' h rest k hr

theorem longIntegerDigits_suffix (p : Bool) (sig : Nat) :
    ∀ e, LeavesSuffix (longIntegerDigits p sig e) := by
  intro e cs
  induction cs generalizing e with
  | nil =>
    intro off a r off' h
    rw [longIntegerDigits] at h
    exact fromParts_suffix _ _ _ _ _ _ _ _ h
  | cons c cs ih =>
    intro off a r off' h
    rw [longIntegerDigits] at h
    split_ifs at h
    · exact (ih _ (off + 1) a r off' h).trans (List.suffix_cons c cs)
    · exact (fractionDigits_suffix p e sig 0 cs (off + 1) a r off' h).trans (List.suffix_cons c cs)
    · exact afterSignificand_suffix p sig e (c :: cs) off a r off' h

theorem afterInteger_extends (p : Bool) (n : Nat) : Extends (afterInteger p n) := by
  intro cs off a r off' h rest k hr
  by_cases hplain : ∀ c cs', cs = c :: cs' → c ≠ '.' ∧ c ≠ 'e' ∧ c ≠ 'E'
  · -- the number ends here, whether `cs` goes on or the delimiter after it comes
    have hplain' : ∀ c cs', cs ++ rest = c :: cs' → c ≠ '.' ∧ c ≠ 'e' ∧ c ≠ 'E' := by
      intro c cs' heq
      rcases cs with _ | ⟨d, ds⟩
      · rw [afterInteger_plain p n hplain] at h
        have hr0 : r = [] := by split_ifs at h <;> simp_all
        have hc := @Delimited.not_number c cs' (by rw [← heq]; exact hr hr0)
        exact ⟨hc.2.1, hc.2.2.1, hc.2.2.2⟩
      · simp only [List.cons_append, List.cons.injEq] at heq
        obtain ⟨rfl, -⟩ := heq
        exact hplain _ _ rfl
    rw [afterInteger_plain p n hplain] at h
    rw [afterInteger_plain p n hplain']
    split_ifs at h ⊢ <;>
    · simp only [Except.ok.injEq, Prod.mk.injEq] at h
      obtain ⟨rfl, rfl, rfl⟩ := h
      rfl
  · simp only [not_forall, not_and_or, not_not] at hplain
    obtain ⟨c, cs', rfl, hc | hc | hc⟩ := hplain <;> subst hc <;>
      show _ = _ <;> rw [List.cons_append]
    · show fractionDigits p n 0 0 (cs' ++ rest) (off + k + 1) = _
      rw [show off + k + 1 = off + 1 + k by omega]
      exact fractionDigits_extends p 0 n 0 cs' (off + 1) a r off' h rest k hr
    · show exponentPart p n 0 (cs' ++ rest) (off + k + 1) = _
      rw [show off + k + 1 = off + 1 + k by omega]
      exact exponentPart_extends p n 0 cs' (off + 1) a r off' h rest k hr
    · show exponentPart p n 0 (cs' ++ rest) (off + k + 1) = _
      rw [show off + k + 1 = off + 1 + k by omega]
      exact exponentPart_extends p n 0 cs' (off + 1) a r off' h rest k hr

theorem afterInteger_suffix (p : Bool) (n : Nat) : LeavesSuffix (afterInteger p n) := by
  intro cs off a r off' h
  by_cases hplain : ∀ c cs', cs = c :: cs' → c ≠ '.' ∧ c ≠ 'e' ∧ c ≠ 'E'
  · rw [afterInteger_plain p n hplain] at h
    split_ifs at h <;>
    · simp only [Except.ok.injEq, Prod.mk.injEq] at h
      rw [← h.2.1]
  · simp only [not_forall, not_and_or, not_not] at hplain
    obtain ⟨c, cs', rfl, hc | hc | hc⟩ := hplain
    · subst hc
      exact (fractionDigits_suffix p 0 n 0 cs' (off + 1) a r off' h).trans (List.suffix_cons _ _)
    · subst hc
      exact (exponentPart_suffix p n 0 cs' (off + 1) a r off' h).trans (List.suffix_cons _ _)
    · subst hc
      exact (exponentPart_suffix p n 0 cs' (off + 1) a r off' h).trans (List.suffix_cons _ _)

theorem integerDigits_extends (p : Bool) : ∀ sig, Extends (integerDigits p sig) := by
  intro sig cs
  induction cs generalizing sig with
  | nil =>
    intro off a r off' h rest k hr
    rw [integerDigits] at h
    cases rest with
    | nil =>
      rw [List.nil_append, integerDigits]
      exact afterInteger_extends p sig [] off a r off' h [] k hr
    | cons c cs =>
      have hr0 : r = [] := List.suffix_nil.mp (afterInteger_suffix p sig [] off a r off' h)
      rw [List.nil_append, integerDigits, if_neg (by rw [(Delimited.not_number (hr hr0)).1]; simp)]
      exact afterInteger_extends p sig [] off a r off' h (c :: cs) k hr
  | cons c cs ih =>
    intro off a r off' h rest k hr
    rw [integerDigits] at h
    rw [List.cons_append, integerDigits]
    by_cases hd : isDigit c = true
    · rw [if_pos hd] at h ⊢
      split_ifs at h ⊢
      · exact longIntegerDigits_extends p sig 0 (c :: cs) off a r off' h rest k hr
      · rw [show off + k + 1 = off + 1 + k by omega]
        exact ih _ (off + 1) a r off' h rest k hr
    · rw [if_neg hd] at h ⊢
      exact afterInteger_extends p sig (c :: cs) off a r off' h rest k hr

theorem integerDigits_suffix (p : Bool) : ∀ sig, LeavesSuffix (integerDigits p sig) := by
  intro sig cs
  induction cs generalizing sig with
  | nil =>
    intro off a r off' h
    rw [integerDigits] at h
    exact afterInteger_suffix p sig [] off a r off' h
  | cons c cs ih =>
    intro off a r off' h
    rw [integerDigits] at h
    by_cases hd : isDigit c = true
    · rw [if_pos hd] at h
      split_ifs at h
      · exact longIntegerDigits_suffix p sig 0 (c :: cs) off a r off' h
      · exact (ih _ (off + 1) a r off' h).trans (List.suffix_cons c cs)
    · rw [if_neg hd] at h
      exact afterInteger_suffix p sig (c :: cs) off a r off' h

theorem number_cons (p : Bool) (c : Char) (cs : List Char) (off : Nat) :
    number p (c :: cs) off =
      if c = '0' then
        (if cs.head?.any isDigit = true then failAt .invalidNumber (off + 2)
        else afterInteger p 0 cs (off + 1))
      else if isDigit c = true then integerDigits p (digitVal c) cs (off + 1)
      else failAt .invalidNumber (off + 1) := by
  rcases cs with _ | ⟨d, ds⟩
  · simp [number]
  · by_cases hd : isDigit d = true <;> simp [number, hd]

/-- The number scanner reads a number the same when a delimiter follows it. -/
theorem number_extends (p : Bool) : Extends (number p) := by
  intro cs off a r off' h rest k hr
  rcases cs with _ | ⟨c, cs⟩
  · simp [number, failAt] at h
  rw [number_cons] at h
  rw [List.cons_append, number_cons, show off + k + 1 = off + 1 + k by omega]
  by_cases h0 : c = '0'
  · rw [if_pos h0] at h ⊢
    by_cases hlead : cs.head?.any isDigit = true
    · rw [if_pos hlead] at h
      exact absurd h (by simp [failAt])
    · rw [if_neg hlead] at h
      -- a zero is followed by no digit, neither in `cs` nor in the delimiter after it
      have hlead' : ¬ (cs ++ rest).head?.any isDigit = true := by
        rcases cs with _ | ⟨e, es⟩
        · have hr' : r = [] := List.suffix_nil.mp (afterInteger_suffix p 0 [] _ a r off' h)
          have hrest := hr hr'
          rcases rest with _ | ⟨f, fs⟩
          · simp
          · simp [(Delimited.not_number hrest).1]
        · simpa using hlead
      rw [if_neg hlead']
      exact afterInteger_extends p 0 cs (off + 1) a r off' h rest k hr
  · rw [if_neg h0] at h ⊢
    split_ifs at h ⊢
    · exact integerDigits_extends p _ cs (off + 1) a r off' h rest k hr
    · exact absurd h (by simp [failAt])

theorem number_suffix (p : Bool) : LeavesSuffix (number p) := by
  intro cs off a r off' h
  rcases cs with _ | ⟨c, cs⟩
  · simp [number, failAt] at h
  rw [number_cons] at h
  split_ifs at h
  · exact absurd h (by simp [failAt])
  · exact (afterInteger_suffix p 0 cs (off + 1) a r off' h).trans (List.suffix_cons c cs)
  · exact (integerDigits_suffix p _ cs (off + 1) a r off' h).trans (List.suffix_cons c cs)
  · exact absurd h (by simp [failAt])

end Scan

end DaemonBridge.Json
