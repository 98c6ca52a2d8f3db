import Mathlib.Data.Bool.AllAny
import Mathlib.Data.Nat.Digits.Defs
import StageFusion.Proofs.Agreement
import StageFusion.Proofs.Letters
import StageFusion.Proofs.Limits

/-! Multiplicities read from texts.

What stands between the outer blanks of a text is read as a multiplicity just if it is a numeral
(`Multiplicity.IsNumeral`: decimal digits of any scripts, not more than the limit, with their value in base
ten) or a name of `unbounded` in any case (`Multiplicity.NamesUnbounded`). `Multiplicity.Reading` lists what
comes of a text, one constructor for each way, and `reading_ofText` says that nothing else does. The names
are compared with all small letters of the text, and no character beyond ASCII has a letter of theirs for
its small one (`isUnboundedName_lower`). -/

namespace StageFusion.Multiplicity

open Text (digitValue? digitValues? isBlank lower lowerChar trim SameChar)

/-- Decimal digits of any scripts, at least one and at most the limit, with this value in base ten. -/
def IsNumeral (text : List Char) (n : Nat) : Prop :=
  text ≠ [] ∧ text.length ≤ numeralLimit ∧ ∃ digits,
    List.Forall₂ (fun c d => digitValue? c = some d) text digits ∧ Nat.ofDigits 10 digits.reverse = n

/-- The infinity sign, or one of the words for it with its ASCII letters in any case. -/
def NamesUnbounded (text : List Char) : Prop :=
  ∃ name ∈ unboundedNames, text.map Char.toLower = name.toList

/-- The text is not read, and the fault is one about values. -/
def Refused (s : String) : Prop :=
  ∃ e, ofText s = .error e ∧ e.label = "ValueError"

/-! ## Names -/

/-- The characters of the names. -/
def nameChars : List Char :=
  ['∞', 'i', 'n', 'f', 't', 'y', 'u', 'b', 'o', 'd', 'e']

theorem mem_nameChars {name : String} (h : name ∈ unboundedNames) : ∀ d ∈ name.toList, d ∈ nameChars := by
  simp only [unboundedNames, List.mem_cons, List.not_mem_nil, or_false] at h
  rcases h with rfl | rfl | rfl | rfl <;> simp [nameChars]

theorem ascii_or_infinity_of_mem_nameChars : ∀ d ∈ nameChars, d.toNat < 128 ∨ d = '∞' :=
  List.all_iff_forall_prop.mp (by decide +kernel)

theorem digitValue?_of_mem_nameChars : ∀ d ∈ nameChars, digitValue? d = none :=
  List.all_iff_forall_prop.mp (by decide +kernel)

theorem isBlank_of_mem_nameChars : ∀ d ∈ nameChars, isBlank d = false :=
  List.all_iff_forall_prop.mp (by decide +kernel)

/-- No capital letter beyond ASCII has a letter of the names for its small one. -/
theorem nameChars_apart_from_small : ∀ r ∈ Text.furtherCapitals, ∀ d ∈ nameChars,
    r.smallLast < d.toNat ∨ d.toNat < r.small := by
  have hall : (Text.furtherCapitals.all fun r => nameChars.all fun d =>
      Nat.blt r.smallLast d.toNat || Nat.blt d.toNat r.small) = true := by
    decide +kernel
  simpa only [List.all_eq_true, Bool.or_eq_true, Nat.blt_eq] using hall

theorem ascii_or_infinity_of_lowerChar {c : Char} (h : ∀ d ∈ lowerChar c, d ∈ nameChars) :
    c.toNat < 128 ∨ c = '∞' := by
  rcases Text.lowerChar_cases c with ⟨-, hlower⟩ | ⟨r, hr, d, -, hlast, hlower, hsmall⟩ | hlower
  · exact absurd (h (Char.ofNat 0x307) (by simp [hlower])) (by decide +kernel)
  · rcases List.mem_cons.mp hr with rfl | hr
    · exact .inl (lt_of_le_of_lt hlast (by decide))
    · have hapart := nameChars_apart_from_small r hr d (h d (by simp [hlower]))
      omega
  · exact ascii_or_infinity_of_mem_nameChars c (h c (by simp [hlower]))

theorem lowerChar_of_ascii_or_infinity {c : Char} (h : c.toNat < 128 ∨ c = '∞') :
    lowerChar c = [c.toLower] := by
  rcases h with h | rfl
  · exact Text.lowerChar_of_ascii h
  · decide +kernel

/-- For words of the characters of names, the small letters of a text are those of ASCII. -/
theorem lower_eq_iff {text word : List Char} (hword : ∀ d ∈ word, d ∈ nameChars) :
    lower text = word ↔ text.map Char.toLower = word := by
  have heq (h : ∀ c ∈ text, c.toNat < 128 ∨ c = '∞') : lower text = text.map Char.toLower :=
    Text.lower_eq_map fun c hc => lowerChar_of_ascii_or_infinity (h c hc)
  constructor
  · intro h
    rw [← h, heq]
    intro c hc
    apply ascii_or_infinity_of_lowerChar
    intro d hd
    exact hword d (h ▸ List.mem_flatMap.mpr ⟨c, hc, hd⟩)
  · intro h
    rw [← h, heq]
    intro c hc
    have hmem : c.toLower ∈ nameChars := hword _ (h ▸ List.mem_map_of_mem hc)
    by_cases hascii : c.toNat < 128
    · exact .inl hascii
    · rw [Text.toLower_of_le (by omega)] at hmem
      exact ascii_or_infinity_of_mem_nameChars c hmem

theorem isUnboundedName_lower (text : List Char) :
    isUnboundedName (lower text) = true ↔ NamesUnbounded text := by
  rw [isUnboundedName, List.contains_iff_mem, NamesUnbounded]
  constructor
  · intro h
    refine ⟨_, h, ?_⟩
    rw [← lower_eq_iff (mem_nameChars h), String.toList_ofList]
  · rintro ⟨name, hname, h⟩
    rw [(lower_eq_iff (mem_nameChars hname)).mpr h, String.ofList_toList]
    exact hname

theorem NamesUnbounded.mem_nameChars_of_mem {text : List Char} (h : NamesUnbounded text) :
    ∀ c ∈ text, ∀ d ∈ lowerChar c, d ∈ nameChars := by
  obtain ⟨name, hname, h⟩ := h
  intro c hc d hd
  apply mem_nameChars hname
  rw [← (lower_eq_iff (mem_nameChars hname)).mpr h]
  exact List.mem_flatMap.mpr ⟨c, hc, hd⟩

theorem NamesUnbounded.digitValue?_eq_none {text : List Char} (h : NamesUnbounded text) :
    ∀ c ∈ text, digitValue? c = none := by
  intro c hc
  by_contra hdigit
  have hself := Text.lowerChar_of_isSome_digitValue? (Option.isSome_iff_ne_none.mpr hdigit)
  exact hdigit (digitValue?_of_mem_nameChars c (h.mem_nameChars_of_mem c hc c (by simp [hself])))

theorem NamesUnbounded.ne_nil {text : List Char} (h : NamesUnbounded text) : text ≠ [] := by
  obtain ⟨name, hname, h⟩ := h
  rintro rfl
  have hnames : ∀ name ∈ unboundedNames, [] ≠ name.toList := by decide
  exact hnames name hname h

theorem NamesUnbounded.not_digits {text : List Char} (h : NamesUnbounded text) :
    ¬ ∀ c ∈ text, (digitValue? c).isSome := by
  intro hdigits
  obtain ⟨c, hc⟩ := List.exists_mem_of_ne_nil text h.ne_nil
  simpa [h.digitValue?_eq_none c hc] using hdigits c hc

theorem NamesUnbounded.of_lower_eq {text text' : List Char} (heq : lower text = lower text')
    (h : NamesUnbounded text) : NamesUnbounded text' := by
  rw [← isUnboundedName_lower, heq] at *
  exact h

/-! ## Numerals -/

/-- The value of digits is that of their places. -/
theorem ofDigits_eq (digits : List Nat) : Text.ofDigits digits = Nat.ofDigits 10 digits.reverse := by
  rw [Nat.ofDigits_eq_foldr, List.foldr_reverse, Text.ofDigits]
  congr 1
  funext n d
  simp [add_comm]

theorem readDigits?_of_eq_some {text : List Char} {digits : List Nat} (hne : text ≠ [])
    (h : digitValues? text = some digits) :
    readDigits? text = some (if digits.length ≤ numeralLimit then .ok (Text.ofDigits digits)
      else .error (.numeralRead digits.length)) := by
  cases text with
  | nil => exact absurd rfl hne
  | cons c text => simp only [readDigits?, h]

theorem readDigits?_of_eq_none {text : List Char} (h : digitValues? text = none) :
    readDigits? text = none := by
  unfold readDigits?
  rw [h]
  cases text <;> rfl

/-! ## What comes of a text -/

/-- What comes of a text, with what stands between its outer blanks: `unbounded` for a name, a number for
digits unless they are too many, and a fault that shows the text for everything else. -/
inductive Reading (s : String) (text : List Char) : Except Fault Multiplicity → Prop
  | named (name : NamesUnbounded text) : Reading s text (.ok unbounded)
  | number {n : Nat} (numeral : IsNumeral text n) : Reading s text (.ok (exact n))
  | long (digits : ∀ c ∈ text, (digitValue? c).isSome) (many : numeralLimit < text.length) :
    Reading s text (.error (.numeralRead text.length))
  | other (noName : ¬ NamesUnbounded text) (noDigits : text = [] ∨ ∃ c ∈ text, digitValue? c = none) :
    Reading s text (.error (.multiplicity (Text.quote s)))

theorem reading_ofText (s : String) : Reading s (trim s.toList) (ofText s) := by
  unfold ofText
  generalize trim s.toList = text
  by_cases hname : NamesUnbounded text
  · rw [if_pos ((isUnboundedName_lower text).mpr hname)]
    exact .named hname
  · rw [if_neg (mt (isUnboundedName_lower text).mp hname)]
    by_cases hne : text = []
    · subst hne
      exact .other hname (.inl rfl)
    cases hdigits : digitValues? text with
    | none =>
      rw [readDigits?_of_eq_none (by rw [Text.digitValues?_lower, hdigits])]
      refine .other hname (.inr ?_)
      by_contra hall
      push Not at hall
      have hsome : (digitValues? text).isSome :=
        Text.isSome_digitValues?_iff.mpr fun c hc => Option.isSome_iff_ne_none.mpr (hall c hc)
      simp [hdigits] at hsome
    | some digits =>
      have hall : ∀ c ∈ text, (digitValue? c).isSome :=
        Text.isSome_digitValues?_iff.mp (by simp [hdigits])
      have hlower : lower text = text := by
        rw [Text.lower_eq_map (f := id) fun c hc => Text.lowerChar_of_isSome_digitValue? (hall c hc),
          List.map_id]
      have hforall := Text.digitValues?_eq_some_iff.mp hdigits
      rw [hlower, readDigits?_of_eq_some hne hdigits, ← hforall.length_eq]
      by_cases hshort : text.length ≤ numeralLimit
      · rw [if_pos hshort]
        exact .number ⟨hne, hshort, digits, hforall, (ofDigits_eq digits).symm⟩
      · rw [if_neg hshort]
        exact .long hall (not_le.mp hshort)

theorem IsNumeral.digits {text : List Char} {n : Nat} (h : IsNumeral text n) :
    ∀ c ∈ text, (digitValue? c).isSome := by
  obtain ⟨-, -, digits, hdigits, -⟩ := h
  rw [← Text.isSome_digitValues?_iff, Text.digitValues?_eq_some_iff.mpr hdigits]
  rfl

theorem IsNumeral.unique {text : List Char} {n n' : Nat} (h : IsNumeral text n)
    (h' : IsNumeral text n') : n = n' := by
  obtain ⟨-, -, digits, hdigits, rfl⟩ := h
  obtain ⟨-, -, digits', hdigits', rfl⟩ := h'
  have heq := Text.digitValues?_eq_some_iff.mpr hdigits
  rw [Text.digitValues?_eq_some_iff.mpr hdigits', Option.some.injEq] at heq
  rw [heq]

theorem IsNumeral.not_name {text : List Char} {n : Nat} (h : IsNumeral text n) :
    ¬ NamesUnbounded text :=
  fun hname => hname.not_digits h.digits

theorem exists_isNumeral {text : List Char} (hne : text ≠ []) (hlimit : text.length ≤ numeralLimit)
    (hdigits : ∀ c ∈ text, (digitValue? c).isSome) : ∃ n, IsNumeral text n := by
  obtain ⟨digits, h⟩ := Option.isSome_iff_exists.mp (Text.isSome_digitValues?_iff.mpr hdigits)
  exact ⟨_, hne, hlimit, digits, Text.digitValues?_eq_some_iff.mp h, rfl⟩

theorem ofText_eq_exact_iff {s : String} {n : Nat} :
    ofText s = .ok (exact n) ↔ IsNumeral (trim s.toList) n := by
  have hreading := reading_ofText s
  constructor
  · intro h
    rw [h] at hreading
    cases hreading
    assumption
  · intro h
    generalize ofText s = outcome at hreading
    cases hreading with
    | named name => exact absurd name h.not_name
    | number numeral => rw [h.unique numeral]
    | long _ many => exact absurd h.2.1 (not_le.mpr many)
    | other _ noDigits =>
      rcases noDigits with hnil | ⟨c, hc, hnone⟩
      · exact absurd hnil h.1
      · simpa [hnone] using h.digits c hc

theorem ofText_eq_unbounded_iff {s : String} :
    ofText s = .ok unbounded ↔ NamesUnbounded (trim s.toList) := by
  have hreading := reading_ofText s
  constructor
  · intro h
    rw [h] at hreading
    cases hreading
    assumption
  · intro h
    generalize ofText s = outcome at hreading
    cases hreading with
    | named => rfl
    | number numeral => exact absurd h numeral.not_name
    | long digits => exact absurd digits h.not_digits
    | other noName => exact absurd h noName

/-- What is neither a numeral nor a name is refused. -/
theorem refused_iff {s : String} :
    Refused s ↔ (∀ n, ¬ IsNumeral (trim s.toList) n) ∧ ¬ NamesUnbounded (trim s.toList) := by
  constructor
  · rintro ⟨e, he, -⟩
    constructor
    · intro n hn
      rw [ofText_eq_exact_iff.mpr hn] at he
      cases he
    · intro hname
      rw [ofText_eq_unbounded_iff.mpr hname] at he
      cases he
  · rintro ⟨hnumeral, hname⟩
    have hreading := reading_ofText s
    generalize hread : ofText s = outcome at hreading
    cases hreading with
    | named name => exact absurd name hname
    | number numeral => exact absurd numeral (hnumeral _)
    | long _ _ => exact ⟨_, hread, rfl⟩
    | other _ _ => exact ⟨_, hread, rfl⟩

theorem refused_of_mem {s : String} {c : Char} (hc : c ∈ trim s.toList)
    (hdigit : digitValue? c = none) (hname : ¬ NamesUnbounded (trim s.toList)) : Refused s := by
  refine refused_iff.mpr ⟨fun n hn => ?_, hname⟩
  simpa [hdigit] using hn.digits c hc

/-- The characters of signs, of grouped digits and of fractions. -/
def numeralMarks : List Char :=
  ['+', '-', '_', '.']

/-- None of these characters is a digit, or part of a name. -/
theorem numeralMarks_apart : ∀ c ∈ numeralMarks,
    digitValue? c = none ∧ c.toNat < 128 ∧ c.toLower ∉ nameChars :=
  List.all_iff_forall_prop.mp (by decide +kernel)

theorem refused_of_mem_numeralMarks {s : String} {c : Char} (hc : c ∈ trim s.toList)
    (hmark : c ∈ numeralMarks) : Refused s := by
  obtain ⟨hdigit, hascii, hforeign⟩ := numeralMarks_apart c hmark
  refine refused_of_mem hc hdigit fun hname => hforeign ?_
  exact hname.mem_nameChars_of_mem c hc _ (by simp [Text.lowerChar_of_ascii hascii])

theorem refused_of_isBlank {s : String} {c : Char} (hc : c ∈ trim s.toList)
    (hblank : isBlank c = true) : Refused s := by
  have hdigit : digitValue? c = none := by
    by_contra h
    simp [Text.isBlank_of_isSome_digitValue? (Option.isSome_iff_ne_none.mpr h)] at hblank
  refine refused_of_mem hc hdigit fun hname => ?_
  obtain ⟨d, hd⟩ := List.exists_mem_of_ne_nil _ (Text.lowerChar_ne_nil c)
  have hpart := isBlank_of_mem_nameChars d (hname.mem_nameChars_of_mem c hc d hd)
  simp [Text.isBlank_of_mem_lowerChar hd, hblank] at hpart

/-- A name has no digit, so one digit more makes no name of it. -/
theorem refused_of_mixed {s : String} {c d : Char} (hc : c ∈ trim s.toList) (hd : d ∈ trim s.toList)
    (hdigit : (digitValue? c).isSome) (hother : digitValue? d = none) : Refused s := by
  refine refused_of_mem hd hother fun hname => ?_
  simp [hname.digitValue?_eq_none c hc] at hdigit

/-! ## Texts that are read alike -/

/-- Two texts are read as the same multiplicity, or both not at all. -/
def SameReading (s s' : String) : Prop :=
  (ofText s).toOption = (ofText s').toOption

theorem sameReading_iff {s s' : String} :
    SameReading s s' ↔ ∀ m, ofText s = .ok m ↔ ofText s' = .ok m := by
  have hsome (x : Except Fault Multiplicity) (m : Multiplicity) :
      x.toOption = some m ↔ x = .ok m := by
    cases x <;> simp [Except.toOption]
  rw [SameReading, Option.ext_iff]
  simp only [hsome]

theorem sameReading_of_text {s s' : String}
    (hnumeral : ∀ n, IsNumeral (trim s.toList) n ↔ IsNumeral (trim s'.toList) n)
    (hname : NamesUnbounded (trim s.toList) ↔ NamesUnbounded (trim s'.toList)) :
    SameReading s s' := by
  rw [sameReading_iff]
  intro m
  cases m with
  | exact n => rw [ofText_eq_exact_iff, ofText_eq_exact_iff, hnumeral]
  | unbounded => rw [ofText_eq_unbounded_iff, ofText_eq_unbounded_iff, hname]

theorem IsNumeral.of_sameChar {text text' : List Char} {n : Nat}
    (hsame : List.Forall₂ SameChar text text') (h : IsNumeral text n) : IsNumeral text' n := by
  obtain ⟨hne, hlimit, digits, hdigits, hvalue⟩ := h
  have hvalues : digitValues? text = digitValues? text' :=
    Text.digitValues?_congr (hsame.imp fun _ _ h => h.digitValue?_eq)
  refine ⟨?_, hsame.length_eq ▸ hlimit, digits, ?_, hvalue⟩
  · rintro rfl
    exact hne (List.forall₂_nil_right_iff.mp hsame)
  · rw [← Text.digitValues?_eq_some_iff, ← hvalues, Text.digitValues?_eq_some_iff]
    exact hdigits

theorem NamesUnbounded.of_sameChar {text text' : List Char}
    (hsame : List.Forall₂ SameChar text text') (h : NamesUnbounded text) : NamesUnbounded text' :=
  h.of_lower_eq (Text.lower_eq_of_forall₂_sameChar hsame h.digitValue?_eq_none)

theorem sameReading_of_sameChar {s s' : String}
    (h : List.Forall₂ SameChar s.toList s'.toList) : SameReading s s' := by
  have htrim := Text.forall₂_sameChar_trim h
  have hback : List.Forall₂ SameChar (trim s'.toList) (trim s.toList) :=
    htrim.flip.imp fun _ _ h => SameChar.symm h
  exact sameReading_of_text (fun _ => ⟨.of_sameChar htrim, .of_sameChar hback⟩)
    ⟨.of_sameChar htrim, .of_sameChar hback⟩

theorem sameReading_of_blanks {before after : List Char} (h : ∀ c ∈ before ++ after, isBlank c = true)
    (s : String) : SameReading s (String.ofList (before ++ s.toList ++ after)) := by
  obtain ⟨hbefore, hafter⟩ := List.forall_mem_append.mp h
  have htrim : trim (String.ofList (before ++ s.toList ++ after)).toList = trim s.toList := by
    rw [String.toList_ofList, Text.trim_append_append hbefore hafter]
  exact sameReading_of_text (fun _ => by rw [htrim]) (by rw [htrim])

/-- A numeral is read as it stands. -/
theorem IsNumeral.ofText_eq {text : List Char} {n : Nat} (h : IsNumeral text n) :
    ofText (String.ofList text) = .ok (exact n) := by
  rw [ofText_eq_exact_iff, String.toList_ofList, Text.trim_of_not_blank]
  · exact h
  · exact fun c hc => Text.isBlank_of_isSome_digitValue? (h.digits c hc)

theorem IsNumeral.zeros_append {text zeros : List Char} {n : Nat} (h : IsNumeral text n)
    (hzeros : ∀ c ∈ zeros, digitValue? c = some 0) (hlimit : (zeros ++ text).length ≤ numeralLimit) :
    IsNumeral (zeros ++ text) n := by
  obtain ⟨hne, -, digits, hdigits, hvalue⟩ := h
  refine ⟨by simp [hne], hlimit, List.replicate zeros.length 0 ++ digits, ?_, ?_⟩
  · apply List.rel_append _ hdigits
    clear hlimit
    induction zeros with
    | nil => exact .nil
    | cons c zeros ih =>
      obtain ⟨hc, hzeros⟩ := List.forall_mem_cons.mp hzeros
      exact .cons hc (ih hzeros)
  · rw [List.reverse_append, List.reverse_replicate, Nat.ofDigits_append, hvalue,
      Nat.ofDigits_replicate_zero, mul_zero, add_zero]

/-- Leading zeros do not matter to a numeral. -/
theorem isNumeral_zeros_append_iff {text zeros : List Char} {n : Nat} (hne : text ≠ [])
    (hzeros : ∀ c ∈ zeros, digitValue? c = some 0) (hlimit : (zeros ++ text).length ≤ numeralLimit) :
    IsNumeral (zeros ++ text) n ↔ IsNumeral text n := by
  refine ⟨fun h => ?_, fun h => h.zeros_append hzeros hlimit⟩
  have hdigits := (List.forall_mem_append.mp h.digits).2
  rw [List.length_append] at hlimit
  obtain ⟨n', h'⟩ := exists_isNumeral hne (by omega) hdigits
  rw [← List.length_append] at hlimit
  rwa [h.unique (h'.zeros_append hzeros hlimit)]

theorem ofText_zeros_append_iff {s : String} {zeros : List Char} {n : Nat}
    (hne : trim s.toList ≠ []) (hzeros : ∀ c ∈ zeros, digitValue? c = some 0)
    (hlimit : (zeros ++ trim s.toList).length ≤ numeralLimit) :
    ofText (String.ofList (zeros ++ trim s.toList)) = .ok (exact n) ↔ ofText s = .ok (exact n) := by
  have hfront : ∀ c ∈ zeros, isBlank c = false :=
    fun c hc => Text.isBlank_of_isSome_digitValue? (by simp [hzeros c hc])
  rw [ofText_eq_exact_iff, ofText_eq_exact_iff, String.toList_ofList,
    Text.trim_append_trim hfront hne, isNumeral_zeros_append_iff hne hzeros hlimit]

/-! ## Numerals of numbers -/

theorem digitValue?_of_isDigit {c : Char} (h : c.isDigit = true) :
    digitValue? c = some (c.toNat - '0'.toNat) := by
  have hascii : c.toNat < 128 := by
    rw [Char.isDigit, Bool.and_eq_true, decide_eq_true_eq, decide_eq_true_eq] at h
    have hle : c.toNat ≤ 57 := h.2
    omega
  exact Text.forall_ascii (P := fun c => c.isDigit = true → digitValue? c = some (c.toNat - '0'.toNat))
    (by decide +kernel) hascii h

theorem length_toDigits_le {n : Nat} (h : n < numeralBound) :
    (Nat.toDigits 10 n).length ≤ numeralLimit := by
  have hlimit : 0 < numeralLimit := by decide
  -- with a variable for the limit its power is not evaluated
  unfold numeralBound at h
  generalize numeralLimit = limit at h hlimit ⊢
  exact (Nat.length_toDigits_le_iff (by decide) hlimit).mpr h

theorem isNumeral_toDigits {n : Nat} (h : n < numeralBound) : IsNumeral (Nat.toDigits 10 n) n := by
  refine ⟨Nat.toDigits_ne_nil, length_toDigits_le h,
    (Nat.toDigits 10 n).map (·.toNat - '0'.toNat), ?_, ?_⟩
  · rw [List.forall₂_map_right_iff, List.forall₂_same]
    exact fun c hc => digitValue?_of_isDigit (Nat.isDigit_of_mem_toDigits (by decide) (by decide) hc)
  · calc Nat.ofDigits 10 ((Nat.toDigits 10 n).map (·.toNat - '0'.toNat)).reverse
        = Nat.ofDigitChars 10 (Nat.toDigits 10 n) 0 := by
          rw [← ofDigits_eq, Text.ofDigits, List.foldl_map, Nat.ofDigitChars_eq_foldl]
      _ = n := Nat.ofDigitChars_toDigits (by decide) (by decide)

/-- A bound that can be written is read back from its text. -/
theorem Writable.exists_text {m : Multiplicity} (h : m.Writable) :
    ∃ text, m.write = .ok text ∧ ofText text = .ok m := by
  cases m with
  | exact n =>
    refine ⟨_, write_of_lt h, ?_⟩
    show ofText n.repr = _
    rw [Nat.repr_eq_ofList_toDigits]
    exact (isNumeral_toDigits h).ofText_eq
  | unbounded => exact ⟨"∞", rfl, by decide +kernel⟩

/-! ## The laws together -/

/-- What holds of the reading of a text. -/
structure ReadingLaws (s : String) : Prop where
  exact_iff : ∀ n, ofText s = .ok (exact n) ↔ IsNumeral (trim s.toList) n
  unbounded_iff : ofText s = .ok unbounded ↔ NamesUnbounded (trim s.toList)
  refused_iff : Refused s ↔
    (∀ n, ¬ IsNumeral (trim s.toList) n) ∧ ¬ NamesUnbounded (trim s.toList)
  /-- Blanks may be added around a text. -/
  blanks : ∀ before after, (∀ c ∈ before ++ after, isBlank c = true) →
    SameReading s (String.ofList (before ++ s.toList ++ after))
  /-- Letters may be written in the other case, and digits in another script. -/
  variants : ∀ s' : String, List.Forall₂ SameChar s.toList s'.toList → SameReading s s'
  /-- Zeros may be added before a numeral, up to the limit. -/
  zeros : ∀ zeros n, (∀ c ∈ zeros, digitValue? c = some 0) → trim s.toList ≠ [] →
    (zeros ++ trim s.toList).length ≤ numeralLimit →
    (ofText s = .ok (exact n) ↔ ofText (String.ofList (zeros ++ trim s.toList)) = .ok (exact n))
  /-- Signs, underscores and dots are not read, nor blanks within a text. -/
  marks : ∀ c ∈ trim s.toList, c ∈ numeralMarks ∨ isBlank c = true → Refused s
  /-- Letters are not read next to digits, so exponents are not. -/
  mixed : ∀ c ∈ trim s.toList, ∀ d ∈ trim s.toList,
    (digitValue? c).isSome → digitValue? d = none → Refused s

/-- **A text is read just if it is a numeral or a name of the top element, and what is written is read
back.** The report of a bound reads as the bound, and so does its text unless it has too many digits to be
written. -/
theorem ofText_laws (s : String) (m : Multiplicity) :
    ReadingLaws s ∧ ofValue m.toValue = .ok m ∧
      (m.Writable → ∃ text, m.write = .ok text ∧ ofText text = .ok m) := by
  refine ⟨?_, ofValue_toValue m, Writable.exists_text⟩
  constructor
  case exact_iff => exact fun n => ofText_eq_exact_iff
  case unbounded_iff => exact ofText_eq_unbounded_iff
  case refused_iff => exact refused_iff
  case blanks => exact fun before after h => sameReading_of_blanks h s
  case variants => exact fun s' h => sameReading_of_sameChar h
  case zeros => exact fun zeros n h hne hlimit => (ofText_zeros_append_iff hne h hlimit).symm
  case marks =>
    rintro c hc (hmark | hblank)
    · exact refused_of_mem_numeralMarks hc hmark
    · exact refused_of_isBlank hc hblank
  case mixed => exact fun c hc d hd => refused_of_mixed hc hd

/-- Digits of three scripts between blanks are one numeral, and an exponent is none. -/
theorem ofText_mixed_scripts :
    ofText "\t1٢３ " = .ok (exact 123) ∧ Refused "1e5" ∧
      ∃ text, (exact 123).write = .ok text ∧ ofText text = .ok (exact 123) := by
  obtain ⟨hread, -, hwrite⟩ := ofText_laws "\t1٢３ " (exact 123)
  obtain ⟨hexponent, -⟩ := ofText_laws "1e5" unbounded
  have hnumeral : IsNumeral (trim "\t1٢３ ".toList) 123 :=
    ⟨by decide +kernel, by decide +kernel, [1, 2, 3],
      Text.digitValues?_eq_some_iff.mp (by decide +kernel), rfl⟩
  exact ⟨(hread.exact_iff 123).mpr hnumeral,
    hexponent.mixed '1' (by decide +kernel) 'e' (by decide +kernel) (by decide +kernel)
      (by decide +kernel),
    hwrite (by decide +kernel)⟩

end StageFusion.Multiplicity
