import Mathlib.Data.List.DropRight
import Mathlib.Data.List.Forall2
import StageFusion.Text.Blank
import StageFusion.Text.Digit
import StageFusion.Text.Lower
import StageFusion.Text.Surrogate

/-! Blanks, digits and small letters.

The three tables of characters do not meet: no digit is blank, no capital letter is a digit, and no
character has a digit for its small letter. So a text and its small letters are read as the same digits
(`digitValues?_lower`). On ASCII the small letters are those of ASCII (`lowerChar_of_ascii`); beyond, a
capital may have an ASCII letter for its small one, as the sign of the kelvin has.

`SameChar` relates characters that differ in case or script only, and `trim` treats such texts alike
(`forall₂_sameChar_trim`). -/

namespace StageFusion.Text

/-- What holds of the characters with the first 128 code points holds of all ASCII characters. -/
theorem forall_ascii {P : Char → Prop} (h : ∀ n < 128, P (Char.ofNat n)) {c : Char}
    (hc : c.toNat < 128) : P c := by
  have hP := h c.toNat hc
  rwa [Char.ofNat_toNat] at hP

theorem toLower_of_le {c : Char} (h : 128 ≤ c.toNat) : c.toLower = c := by
  unfold Char.toLower
  rw [dif_neg]
  rintro ⟨-, hle⟩
  have hlast : c.toNat ≤ 90 := hle
  omega

/-! ## Digits -/

theorem isSome_digitValue?_iff {c : Char} :
    (digitValue? c).isSome ↔ ∃ z ∈ digitZeros, z ≤ c.toNat ∧ c.toNat < z + 10 := by
  simp [digitValue?]

theorem digitValue?_eq_none_iff {c : Char} :
    digitValue? c = none ↔ ∀ z ∈ digitZeros, c.toNat < z ∨ z + 10 ≤ c.toNat := by
  rw [← Option.not_isSome_iff_eq_none, isSome_digitValue?_iff]
  push Not
  exact forall₂_congr fun z _ => by omega

/-- The digits of a text are the values of its characters, one by one. -/
theorem digitValues?_eq_some_iff {text : List Char} {digits : List Nat} :
    digitValues? text = some digits ↔
      List.Forall₂ (fun c d => digitValue? c = some d) text digits := by
  unfold digitValues?
  induction text generalizing digits with
  | nil => simp [eq_comm]
  | cons c text ih =>
    rw [List.mapM_cons, List.forall₂_cons_left_iff]
    cases hc : digitValue? c with
    | none => simp
    | some d =>
      simp only [Option.bind_eq_bind, Option.bind_some, Option.bind_eq_some_iff, ih,
        Option.pure_def, Option.some.injEq]
      constructor
      · rintro ⟨rest, hrest, rfl⟩
        exact ⟨d, rest, rfl, hrest, rfl⟩
      · rintro ⟨d', rest, rfl, hrest, rfl⟩
        exact ⟨rest, hrest, rfl⟩

theorem isSome_digitValues?_iff {text : List Char} :
    (digitValues? text).isSome ↔ ∀ c ∈ text, (digitValue? c).isSome := by
  unfold digitValues?
  induction text with
  | nil => simp
  | cons c text ih =>
    rw [List.mapM_cons, List.forall_mem_cons, ← ih]
    cases digitValue? c with
    | none => simp
    | some d => cases text.mapM digitValue? <;> simp

theorem digitValues?_eq_none_of_mem {text : List Char} {c : Char} (hc : c ∈ text)
    (h : digitValue? c = none) : digitValues? text = none := by
  rw [← Option.not_isSome_iff_eq_none, isSome_digitValues?_iff]
  intro hall
  rw [← Option.not_isSome_iff_eq_none] at h
  exact h (hall c hc)

theorem digitValues?_congr {text text' : List Char}
    (h : List.Forall₂ (fun c c' => digitValue? c = digitValue? c') text text') :
    digitValues? text = digitValues? text' := by
  unfold digitValues?
  induction h with
  | nil => rfl
  | cons hc _ ih => rw [List.mapM_cons, List.mapM_cons, hc, ih]

theorem digitValue?_eq_of_singleton {c d : Char} (h : digitValues? [c] = digitValues? [d]) :
    digitValue? c = digitValue? d := by
  have hsingle (c : Char) : digitValues? [c] = (digitValue? c).map ([·]) := by
    rw [digitValues?, List.mapM_cons, List.mapM_nil]
    cases digitValue? c <;> rfl
  rw [hsingle, hsingle] at h
  exact Option.map_injective (fun _ _ => List.singleton_inj.mp) h

/-! ## Small letters -/

/-- Neither capitals nor their small letters are digits. -/
theorem capitalRuns_apart_from_digits : ∀ r ∈ capitalRuns, ∀ z ∈ digitZeros,
    (r.last < z ∨ z + 10 ≤ r.first) ∧ (r.smallLast < z ∨ z + 10 ≤ r.small) := by
  -- comparisons of numbers as `Bool` keep the check of all pairs short
  have hall : (capitalRuns.all fun r => digitZeros.all fun z =>
      (Nat.blt r.last z || Nat.ble (z + 10) r.first) &&
        (Nat.blt r.smallLast z || Nat.ble (z + 10) r.small)) = true := by
    decide +kernel
  simpa only [List.all_eq_true, Bool.and_eq_true, Bool.or_eq_true, Nat.blt_eq, Nat.ble_eq]
    using hall

theorem le_first_of_mem_furtherCapitals : ∀ r ∈ furtherCapitals, 128 ≤ r.first := by
  decide +kernel

theorem asciiCapitals_lower {c : Char} (h : c.toNat < 128) :
    (if asciiCapitals.covers c.toNat then asciiCapitals.lower c else c) = c.toLower :=
  forall_ascii (P := fun c => (if asciiCapitals.covers c.toNat then asciiCapitals.lower c else c) =
    c.toLower) (by decide +kernel) h

/-- Small letters are characters. -/
theorem capitalRuns_valid : ∀ r ∈ capitalRuns, r.smallLast < 0xD800 ∨
    0xDFFF < r.small ∧ r.smallLast < 0x110000 := by
  decide +kernel

/-- The small letters of a character: two for one capital, one for the capitals of the table, and none but
the character itself for all others. -/
theorem lowerChar_cases (c : Char) :
    c = 'İ' ∧ lowerChar c = ['i', Char.ofNat 0x307] ∨
    (∃ r ∈ capitalRuns, ∃ d, r.first ≤ c.toNat ∧ c.toNat ≤ r.last ∧ lowerChar c = [d] ∧
      r.small ≤ d.toNat ∧ d.toNat ≤ r.smallLast) ∨
    lowerChar c = [c] := by
  by_cases hc : c = 'İ'
  · exact .inl ⟨hc, if_pos hc⟩
  · rw [lowerChar, if_neg hc]
    cases hfound : capitalRuns.find? (·.covers c.toNat) with
    | none => exact .inr (.inr rfl)
    | some r =>
      have hr := List.mem_of_find?_eq_some hfound
      have hcovers := List.find?_some hfound
      simp only [CapitalRun.covers, Bool.and_eq_true, decide_eq_true_eq] at hcovers
      have hvalid := capitalRuns_valid r hr
      rw [CapitalRun.smallLast] at hvalid
      have hsmall : (r.lower c).toNat = r.small + (c.toNat - r.first) :=
        toNat_ofNat_of_isValidChar (by rw [Nat.isValidChar]; omega)
      refine .inr (.inl ⟨r, hr, _, hcovers.1.1, hcovers.1.2, rfl, ?_, ?_⟩)
      · omega
      · rw [hsmall, CapitalRun.smallLast]
        omega

/-- On ASCII the small letters are those of ASCII. -/
theorem lowerChar_of_ascii {c : Char} (h : c.toNat < 128) : lowerChar c = [c.toLower] := by
  have hdotted : c ≠ 'İ' := by
    rintro rfl
    exact absurd h (by decide)
  have hfurther : furtherCapitals.find? (·.covers c.toNat) = none := by
    rw [List.find?_eq_none]
    intro r hr
    have hfirst := le_first_of_mem_furtherCapitals r hr
    simp only [CapitalRun.covers, Bool.and_eq_true, decide_eq_true_eq]
    omega
  rw [lowerChar, if_neg hdotted, ← asciiCapitals_lower h, capitalRuns, List.find?_cons, hfurther]
  cases asciiCapitals.covers c.toNat <;> rfl

theorem lowerChar_of_isSome_digitValue? {c : Char} (h : (digitValue? c).isSome) :
    lowerChar c = [c] := by
  obtain ⟨z, hz, hle, hlt⟩ := isSome_digitValue?_iff.mp h
  rcases lowerChar_cases c with ⟨rfl, -⟩ | ⟨r, hr, d, hfirst, hlast, -⟩ | hself
  · exact absurd h (by decide +kernel)
  · have hapart := (capitalRuns_apart_from_digits r hr z hz).1
    omega
  · exact hself

theorem exists_mem_lowerChar_of_not_digit {c : Char} (h : digitValue? c = none) :
    ∃ d ∈ lowerChar c, digitValue? d = none := by
  rcases lowerChar_cases c with ⟨-, hlower⟩ | ⟨r, hr, d, -, -, hlower, hfirst, hlast⟩ | hlower
  · exact ⟨'i', by simp [hlower], by decide +kernel⟩
  · refine ⟨d, by simp [hlower], digitValue?_eq_none_iff.mpr fun z hz => ?_⟩
    have hapart := (capitalRuns_apart_from_digits r hr z hz).2
    omega
  · exact ⟨c, by simp [hlower], h⟩

theorem lowerChar_ne_nil (c : Char) : lowerChar c ≠ [] := by
  rcases lowerChar_cases c with ⟨-, h⟩ | ⟨_, _, _, -, -, h, -⟩ | h <;> simp [h]

theorem lower_cons (c : Char) (text : List Char) : lower (c :: text) = lowerChar c ++ lower text :=
  rfl

theorem lower_eq_map {text : List Char} {f : Char → Char} (h : ∀ c ∈ text, lowerChar c = [f c]) :
    lower text = text.map f := by
  induction text with
  | nil => rfl
  | cons c text ih =>
    obtain ⟨hc, htext⟩ := List.forall_mem_cons.mp h
    rw [lower_cons, hc, ih htext, List.map_cons, List.singleton_append]

/-- A text and its small letters are read as the same digits. -/
theorem digitValues?_lower (text : List Char) : digitValues? (lower text) = digitValues? text := by
  by_cases h : ∀ c ∈ text, (digitValue? c).isSome
  · rw [lower_eq_map (f := id) fun c hc => lowerChar_of_isSome_digitValue? (h c hc), List.map_id]
  · push Not at h
    obtain ⟨c, hc, hdigit⟩ := h
    rw [Ne, Option.not_isSome_iff_eq_none] at hdigit
    obtain ⟨d, hd, hdigit'⟩ := exists_mem_lowerChar_of_not_digit hdigit
    have hlower : d ∈ lower text := List.mem_flatMap.mpr ⟨c, hc, hd⟩
    rw [digitValues?_eq_none_of_mem hc hdigit, digitValues?_eq_none_of_mem hlower hdigit']

/-! ## Outer blanks -/

theorem blankRanges_apart_from_digits : ∀ r ∈ blankRanges, ∀ z ∈ digitZeros,
    r.2 < z ∨ z + 10 ≤ r.1 := by
  decide +kernel

theorem isBlank_of_isSome_digitValue? {c : Char} (h : (digitValue? c).isSome) :
    isBlank c = false := by
  obtain ⟨z, hz, hle, hlt⟩ := isSome_digitValue?_iff.mp h
  rw [← Bool.not_eq_true, isBlank, covers_eq_true_iff]
  rintro ⟨r, hr, hfirst, hlast⟩
  have hapart := blankRanges_apart_from_digits r hr z hz
  omega

/-- Neither capitals nor their small letters are blank. -/
theorem capitalRuns_apart_from_blanks : ∀ r ∈ capitalRuns, ∀ b ∈ blankRanges,
    (r.last < b.1 ∨ b.2 < r.first) ∧ (r.smallLast < b.1 ∨ b.2 < r.small) := by
  decide +kernel

theorem isBlank_eq_false_of_apart {c : Char} {low high : Nat} (hlow : low ≤ c.toNat)
    (hhigh : c.toNat ≤ high) (h : ∀ b ∈ blankRanges, high < b.1 ∨ b.2 < low) : isBlank c = false := by
  rw [← Bool.not_eq_true, isBlank, covers_eq_true_iff]
  rintro ⟨b, hb, hfirst, hlast⟩
  have hapart := h b hb
  omega

theorem isBlank_of_mem_lowerChar {c d : Char} (h : d ∈ lowerChar c) : isBlank d = isBlank c := by
  rcases lowerChar_cases c with ⟨rfl, hlower⟩ | ⟨r, hr, d', hfirst, hlast, hlower, hsmall, hsmallLast⟩ |
    hlower
  · rw [hlower, List.mem_cons, List.mem_singleton] at h
    rcases h with rfl | rfl <;> decide +kernel
  · rw [hlower, List.mem_singleton] at h
    subst h
    have hapart := capitalRuns_apart_from_blanks r hr
    rw [isBlank_eq_false_of_apart hfirst hlast fun b hb => (hapart b hb).1,
      isBlank_eq_false_of_apart hsmall hsmallLast fun b hb => (hapart b hb).2]
  · rw [hlower, List.mem_singleton] at h
    rw [h]

theorem trim_of_not_blank {text : List Char} (h : ∀ c ∈ text, isBlank c = false) :
    trim text = text := by
  have hkeeps : ∀ {t : List Char}, (∀ c ∈ t, isBlank c = false) → t.dropWhile isBlank = t := by
    intro t ht
    rw [List.dropWhile_eq_self_iff]
    intro hl
    simp [ht t[0] (List.getElem_mem hl)]
  rw [trim, hkeeps h, hkeeps (by simpa using h), List.reverse_reverse]

/-- Blanks around a text do not matter. -/
theorem trim_append_append {before after : List Char} (hbefore : ∀ c ∈ before, isBlank c = true)
    (hafter : ∀ c ∈ after, isBlank c = true) (text : List Char) :
    trim (before ++ text ++ after) = trim text := by
  have hreverse : ∀ c ∈ after.reverse, isBlank c = true := by simpa using hafter
  rw [trim, List.append_assoc, List.dropWhile_append_of_pos hbefore, List.dropWhile_append, trim]
  split
  · next hempty =>
    -- a text of blanks only is used up from the left
    rw [List.isEmpty_iff.mp hempty, List.dropWhile_eq_nil_iff.mpr hafter]
  · rw [List.reverse_append, List.dropWhile_append_of_pos hreverse]

theorem dropWhile_trim (text : List Char) : (trim text).dropWhile isBlank = trim text := by
  have hinitial : trim text <+: text.dropWhile isBlank := List.rdropWhile_prefix isBlank _
  rw [List.dropWhile_eq_self_iff]
  intro hlength
  rw [hinitial.getElem hlength]
  exact List.dropWhile_get_zero_not isBlank text _

/-- Texts without blanks may be set before a trimmed text. -/
theorem trim_append_trim {front text : List Char} (hfront : ∀ c ∈ front, isBlank c = false)
    (hne : trim text ≠ []) : trim (front ++ trim text) = front ++ trim text := by
  have hhead : (front ++ trim text).dropWhile isBlank = front ++ trim text := by
    cases front with
    | nil => exact dropWhile_trim text
    | cons c front => rw [List.cons_append, List.dropWhile_cons_of_neg (by simp [hfront c])]
  have hlast : (trim text).reverse.dropWhile isBlank = (trim text).reverse := by
    rw [trim, List.reverse_reverse, List.dropWhile_idempotent]
  rw [trim, hhead, List.reverse_append, List.dropWhile_append, hlast,
    if_neg (by simpa using hne), List.reverse_append, List.reverse_reverse, List.reverse_reverse]

/-! ## Texts that differ in case and script only -/

/-- Two characters are one letter in either case, or digits of one value. -/
def SameChar (c d : Char) : Prop :=
  lowerChar c = lowerChar d ∨ ∃ v, digitValue? c = some v ∧ digitValue? d = some v

theorem SameChar.symm {c d : Char} (h : SameChar c d) : SameChar d c :=
  h.imp Eq.symm fun ⟨v, hc, hd⟩ => ⟨v, hd, hc⟩

theorem SameChar.digitValue?_eq {c d : Char} (h : SameChar c d) : digitValue? c = digitValue? d := by
  rcases h with h | ⟨v, hc, hd⟩
  · apply digitValue?_eq_of_singleton
    rw [← digitValues?_lower [c], ← digitValues?_lower [d], lower_cons, lower_cons, h]
  · rw [hc, hd]

theorem SameChar.isBlank_eq {c d : Char} (h : SameChar c d) : isBlank c = isBlank d := by
  rcases h with h | ⟨v, hc, hd⟩
  · obtain ⟨e, he⟩ := List.exists_mem_of_ne_nil _ (lowerChar_ne_nil c)
    have he' : e ∈ lowerChar d := h ▸ he
    rw [← isBlank_of_mem_lowerChar he, isBlank_of_mem_lowerChar he']
  · rw [isBlank_of_isSome_digitValue? (by simp [hc]), isBlank_of_isSome_digitValue? (by simp [hd])]

/-- Without digits only the case is different. -/
theorem lower_eq_of_forall₂_sameChar {text text' : List Char} (h : List.Forall₂ SameChar text text')
    (hno : ∀ c ∈ text, digitValue? c = none) : lower text = lower text' := by
  induction h with
  | nil => rfl
  | cons hchar _ ih =>
    obtain ⟨hc, hno⟩ := List.forall_mem_cons.mp hno
    rcases hchar with hchar | ⟨v, hv, -⟩
    · rw [lower_cons, lower_cons, hchar, ih hno]
    · simp [hc] at hv

theorem forall₂_dropWhile {α : Type} {R : α → α → Prop} {p : α → Bool}
    (hp : ∀ a b, R a b → p a = p b) {xs ys : List α} (h : List.Forall₂ R xs ys) :
    List.Forall₂ R (xs.dropWhile p) (ys.dropWhile p) := by
  induction h with
  | nil => exact .nil
  | @cons a b xs ys hab hrest ih =>
    rw [List.dropWhile_cons, List.dropWhile_cons, hp a b hab]
    split
    · exact ih
    · exact .cons hab hrest

theorem forall₂_sameChar_trim {text text' : List Char} (h : List.Forall₂ SameChar text text') :
    List.Forall₂ SameChar (trim text) (trim text') := by
  have hp : ∀ c d, SameChar c d → isBlank c = isBlank d := fun _ _ h => h.isBlank_eq
  have hfront := forall₂_dropWhile hp h
  have hback := forall₂_dropWhile hp (List.forall₂_reverse_iff.mpr hfront)
  exact List.forall₂_reverse_iff.mpr hback

end StageFusion.Text
