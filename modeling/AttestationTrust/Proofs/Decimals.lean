import Mathlib.Data.List.TakeWhile
import AttestationTrust.Numeral.Reader
import AttestationTrust.Proofs.Blanks
import AttestationTrust.Proofs.Rounding
/-!
# Floating point numbers in text

A text is a floating point number if, between its blanks and without the underscores between its digits, it is a sign or
none and then a word for infinity or for the undefined number, or a decimal (`Numeral.readFloat_eq_some_iff`).  A decimal
is digits with a point among them or none, and a power of ten behind them or none (`Numeral.Decimal`).  It is read as
infinity exactly if it reaches `Binary64.overflow`, so a text can ask for infinity without naming it
(`Numeral.spells_infinity_iff`).
-/
namespace AttestationTrust
namespace Numeral

variable {raw : String} {cs ds rest size tail : List Char} {c previous : Char} {negative : Bool} {digits : Nat} {e : Int} {x : Binary64}

/-! ## Underscores -/

/-- Each underscore of a text stands between two digits, where `previous` is what stands before the text. -/
def Grouped (previous : Char) (cs : List Char) : Prop := ∀ before after, cs = before ++ '_' :: after →
  isAsciiDigit (before.getLastD previous) = true ∧ ∃ c ∈ after.head?, isAsciiDigit c = true

theorem grouped_cons_iff : Grouped previous (c :: rest) ↔
    (c = '_' → isAsciiDigit previous = true ∧ ∃ d ∈ rest.head?, isAsciiDigit d = true) ∧ Grouped c rest := by
  constructor
  · intro h
    refine ⟨fun hc => h [] rest (by rw [hc]; rfl), fun before after heq => ?_⟩
    have hlonger := h (c :: before) after (by rw [heq]; rfl)
    rwa [List.getLastD_cons] at hlonger
  · rintro ⟨hfirst, hrest⟩ before after heq
    cases before with
    | nil =>
      obtain ⟨rfl, rfl⟩ := List.cons.inj heq
      exact hfirst rfl
    | cons b before =>
      obtain ⟨rfl, htail⟩ := List.cons.inj heq
      rw [List.getLastD_cons]
      exact hrest before after htail

/-- Underscores are dropped from a text in which each stands between two digits, and no other text is passed on. -/
theorem dropUnderscores_eq_some_iff : dropUnderscores previous cs = some ds ↔
    (previous = '_' → ∃ c ∈ cs.head?, isAsciiDigit c = true) ∧ Grouped previous cs ∧ cs.filter (· ≠ '_') = ds := by
  have hmark : isAsciiDigit '_' = false := by decide
  -- the character before is carried along, for an underscore has to stand behind a digit as well
  induction cs generalizing previous ds with
  | nil =>
    have hgrouped : Grouped previous [] := fun before after heq => absurd heq (by simp)
    by_cases hp : previous = '_' <;> simp [dropUnderscores, hp, hgrouped]
  | cons c rest ih =>
    rw [dropUnderscores, grouped_cons_iff]
    by_cases hc : c = '_'
    · subst hc
      rw [if_pos rfl, List.filter_cons_of_neg (by simp)]
      by_cases hp : isAsciiDigit previous = true
      · have hne : previous ≠ '_' := fun heq => by rw [heq, hmark] at hp; cases hp
        rw [if_pos hp]
        refine ih.trans ?_
        simp [hp, hne, and_assoc]
      · simp [hp]
    · rw [if_neg hc, List.filter_cons_of_pos (by simp [hc])]
      by_cases hp : previous = '_' ∧ isAsciiDigit c = false
      · simp [hp.1, hp.2]
      · have hfirst : previous = '_' → isAsciiDigit c = true := fun heq => by
          by_contra hdigit
          exact hp ⟨heq, Bool.eq_false_iff.2 hdigit⟩
        have hpass : ¬ (previous = '_' && !isAsciiDigit c) = true := by simpa using hfirst
        rw [if_neg hpass, Option.map_eq_some_iff]
        constructor
        · rintro ⟨plain, hplain, rfl⟩
          obtain ⟨-, hgrouped, rfl⟩ := ih.1 hplain
          exact ⟨fun heq => ⟨c, rfl, hfirst heq⟩, ⟨fun heq => absurd heq hc, hgrouped⟩, rfl⟩
        · rintro ⟨-, ⟨-, hgrouped⟩, rfl⟩
          exact ⟨_, ih.2 ⟨fun heq => absurd heq hc, hgrouped, rfl⟩, rfl⟩

/-! ## Signs -/

/-- A text is a sign or none, and what follows it. -/
inductive Signed : List Char → Bool → List Char → Prop
  | minus (cs : List Char) : Signed ('-' :: cs) true cs
  | plus (cs : List Char) : Signed ('+' :: cs) false cs
  | bare {cs : List Char} (h : ∀ c ∈ cs.head?, c ≠ '-' ∧ c ≠ '+') : Signed cs false cs

theorem splitSign_eq_iff : splitSign cs = (negative, size) ↔ Signed cs negative size := by
  constructor
  · intro h
    unfold splitSign at h
    split at h
    · cases h
      exact .minus _
    · cases h
      exact .plus _
    · next hminus hplus =>
      cases h
      refine .bare fun c hc => ?_
      obtain ⟨rest, rfl⟩ := List.head?_eq_some_iff.1 hc
      exact ⟨fun heq => hminus rest (by rw [heq]), fun heq => hplus rest (by rw [heq])⟩
  · rintro (_ | _ | h)
    · rfl
    · rfl
    · unfold splitSign
      split
      · exact absurd rfl (h _ rfl).1
      · exact absurd rfl (h _ rfl).2
      · rfl

/-! ## Decimals -/

/-- The power of ten behind the digits of a decimal: none, or its letter, a sign or none, and digits. -/
inductive Power : List Char → Int → Prop
  | absent : Power [] 0
  | stated {c : Char} {rest ds : List Char} {negative : Bool} (hc : c = 'e' ∨ c = 'E') (hsign : Signed rest negative ds)
      (hne : ds ≠ []) (hds : ∀ d ∈ ds, isAsciiDigit d = true) :
      Power (c :: rest) (if negative then -(digitsValue ds : Int) else digitsValue ds)

/-- A decimal is digits with a point among them or none, and a power of ten behind them or none; its value is that of
all its digits, with the point moved behind the last of them. -/
inductive Decimal : List Char → Nat → Int → Prop
  | whole {ds tail : List Char} {e : Int} (hds : ∀ d ∈ ds, isAsciiDigit d = true) (hne : ds ≠ []) (htail : Power tail e) :
      Decimal (ds ++ tail) (digitsValue ds) e
  | pointed {ds places tail : List Char} {e : Int} (hds : ∀ d ∈ ds, isAsciiDigit d = true)
      (hplaces : ∀ d ∈ places, isAsciiDigit d = true) (hne : ds ++ places ≠ []) (htail : Power tail e) :
      Decimal (ds ++ '.' :: (places ++ tail)) (digitsValue (ds ++ places)) (e - places.length)

theorem readExponent_eq_some_iff : readExponent cs = some e ↔ Power cs e := by
  constructor
  · intro h
    cases cs with
    | nil =>
      cases h
      exact .absent
    | cons c rest =>
      rw [readExponent] at h
      split at h
      · next hc =>
        rcases hsign : splitSign rest with ⟨negative, ds⟩
        rw [hsign] at h
        dsimp only at h
        split at h
        · next hds =>
          cases h
          exact .stated hc (splitSign_eq_iff.1 hsign) hds.1 (List.all_eq_true.1 hds.2)
        · cases h
      · cases h
  · rintro (_ | ⟨hc, hsign, hne, hds⟩)
    · rfl
    · rw [readExponent, if_pos hc, splitSign_eq_iff.2 hsign]
      exact if_pos ⟨hne, List.all_eq_true.2 hds⟩

theorem Power.head? (h : Power tail e) : ∀ c ∈ tail.head?, isAsciiDigit c = false ∧ c ≠ '.' := by
  cases h with
  | absent => simp
  | stated hc _ _ _ =>
    intro c' hc'
    cases hc'
    rcases hc with rfl | rfl <;> decide

theorem readDecimal_whole (hds : ∀ d ∈ ds, isAsciiDigit d = true)
    (htail : ∀ c ∈ tail.head?, isAsciiDigit c = false ∧ c ≠ '.') : readDecimal negative (ds ++ tail) =
      if ds = [] then none else (readExponent tail).map fun e => Binary64.ofDecimal negative (digitsValue ds) e := by
  have htake := Text.takeWhile_append_of_head? hds fun c hc => (htail c hc).1
  have hdrop := Text.dropWhile_append_of_head? hds fun c hc => (htail c hc).1
  rw [readDecimal, htake, hdrop]
  dsimp only
  split
  · exact absurd rfl (htail '.' rfl).2
  · simp

theorem readDecimal_pointed {places : List Char} (hds : ∀ d ∈ ds, isAsciiDigit d = true)
    (hplaces : ∀ d ∈ places, isAsciiDigit d = true) (htail : ∀ c ∈ tail.head?, isAsciiDigit c = false) :
    readDecimal negative (ds ++ '.' :: (places ++ tail)) =
      if ds ++ places = [] then none
      else (readExponent tail).map fun e =>
        Binary64.ofDecimal negative (digitsValue (ds ++ places)) (e - places.length) := by
  have hpoint : ∀ c ∈ ('.' :: (places ++ tail)).head?, isAsciiDigit c = false := fun c hc => by
    cases hc
    decide
  rw [readDecimal, Text.takeWhile_append_of_head? hds hpoint, Text.dropWhile_append_of_head? hds hpoint]
  simp only [Text.takeWhile_append_of_head? hplaces htail, Text.dropWhile_append_of_head? hplaces htail,
    List.append_eq_nil_iff]

/-- A text is cut behind its first digits, and if a point stands there also behind the digits that follow it. -/
theorem exists_digits (cs : List Char) :
    ∃ ds tail, cs = ds ++ tail ∧ (∀ d ∈ ds, isAsciiDigit d = true) ∧ ∀ c ∈ tail.head?, isAsciiDigit c = false := by
  refine ⟨cs.takeWhile isAsciiDigit, cs.dropWhile isAsciiDigit, List.takeWhile_append_dropWhile.symm,
    fun d hd => List.mem_takeWhile_imp hd, fun c hc => ?_⟩
  have hnot := List.head?_dropWhile_not isAsciiDigit cs
  rwa [hc] at hnot

theorem readDecimal_eq_some_iff : readDecimal negative cs = some x ↔
    ∃ digits e, Decimal cs digits e ∧ x = Binary64.ofDecimal negative digits e := by
  constructor
  · intro h
    obtain ⟨ds, rest, rfl, hds, hrest⟩ := exists_digits cs
    by_cases hpoint : ∃ after, rest = '.' :: after
    · obtain ⟨after, rfl⟩ := hpoint
      obtain ⟨places, tail, rfl, hplaces, htail⟩ := exists_digits after
      rw [readDecimal_pointed hds hplaces htail] at h
      split at h
      · cases h
      · next hne =>
        obtain ⟨e, he, rfl⟩ := Option.map_eq_some_iff.1 h
        exact ⟨_, _, .pointed hds hplaces hne (readExponent_eq_some_iff.1 he), rfl⟩
    · have htail : ∀ c ∈ rest.head?, isAsciiDigit c = false ∧ c ≠ '.' := fun c hc => by
        obtain ⟨after, rfl⟩ := List.head?_eq_some_iff.1 hc
        exact ⟨hrest c rfl, fun heq => hpoint ⟨after, by rw [heq]⟩⟩
      rw [readDecimal_whole hds htail] at h
      split at h
      · cases h
      · next hne =>
        obtain ⟨e, he, rfl⟩ := Option.map_eq_some_iff.1 h
        exact ⟨_, _, .whole hds hne (readExponent_eq_some_iff.1 he), rfl⟩
  · rintro ⟨digits, e, hdecimal, rfl⟩
    cases hdecimal with
    | whole hds hne htail =>
      rw [readDecimal_whole hds htail.head?, if_neg hne, readExponent_eq_some_iff.2 htail]
      rfl
    | pointed hds hplaces hne htail =>
      rw [readDecimal_pointed hds hplaces fun c hc => (htail.head? c hc).1, if_neg hne, readExponent_eq_some_iff.2 htail]
      rfl

/-! ## Words and whole texts -/

/-- The words for infinity. -/
def infinityWords : List (List Char) := ["inf".toList, "infinity".toList]

/-- What stands behind the sign of a number: a word in any case, or a decimal. -/
inductive Sized (negative : Bool) : List Char → Binary64 → Prop
  | infinity {size : List Char} (h : size.map Text.lowerChar ∈ infinityWords) :
      Sized negative size (Binary64.ofMagnitude negative Binary64.topMagnitude)
  | undefined {size : List Char} (h : size.map Text.lowerChar = "nan".toList) :
      Sized negative size (Binary64.ofMagnitude negative Binary64.nan.magnitude)
  | decimal {size : List Char} {digits : Nat} {e : Int} (h : Decimal size digits e) :
      Sized negative size (Binary64.ofDecimal negative digits e)

/-- A text in ASCII digits, without its blanks and the underscores between its digits. -/
def Plain (raw : String) (cs : List Char) : Prop := ∃ word, Text.Leaves raw.toList word ∧
  Grouped ' ' (word.map plainDigit) ∧ (word.map plainDigit).filter (· ≠ '_') = cs

/-- A text spells a number: a sign or none, and the size of the number. -/
def Spells (raw : String) (x : Binary64) : Prop :=
  ∃ cs negative size, Plain raw cs ∧ Signed cs negative size ∧ Sized negative size x

theorem lowerChar_of_isAsciiDigit (h : isAsciiDigit c = true) : Text.lowerChar c = c := by
  simp only [isAsciiDigit, Bool.and_eq_true, decide_eq_true_eq] at h
  refine if_neg fun hupper => ?_
  exact absurd (Char.le_trans hupper.1 h.2) (by decide)

theorem Decimal.exists_head (h : Decimal size digits e) :
    ∃ c rest, size = c :: rest ∧ (isAsciiDigit c = true ∨ c = '.') := by
  cases h with
  | whole hds hne _ =>
    obtain ⟨c, ds, rfl⟩ := List.exists_cons_of_ne_nil hne
    exact ⟨c, _, rfl, .inl (hds c List.mem_cons_self)⟩
  | @pointed ds places tail e hds _ _ _ =>
    cases ds with
    | nil => exact ⟨'.', _, rfl, .inr rfl⟩
    | cons c ds => exact ⟨c, _, rfl, .inl (hds c List.mem_cons_self)⟩

/-- No decimal is a word. -/
theorem Decimal.not_word (h : Decimal size digits e) :
    size.map Text.lowerChar ∉ infinityWords ∧ size.map Text.lowerChar ≠ "nan".toList := by
  have hwords : ∀ word ∈ infinityWords ++ ["nan".toList], word.head? = some 'i' ∨ word.head? = some 'n' := by decide
  obtain ⟨c, rest, rfl, hc⟩ := h.exists_head
  have hlower : Text.lowerChar c = c := hc.elim lowerChar_of_isAsciiDigit fun heq => by rw [heq]; decide
  have hhead : ((c :: rest).map Text.lowerChar).head? = some c := by rw [List.map_cons, hlower]; rfl
  have hnot : (c :: rest).map Text.lowerChar ∉ infinityWords ++ ["nan".toList] := fun hmem => by
    rcases hwords _ hmem with heq | heq
    · cases hhead.symm.trans heq
      exact absurd hc (by decide)
    · cases hhead.symm.trans heq
      exact absurd hc (by decide)
  exact ⟨fun hmem => hnot (List.mem_append_left _ hmem), fun heq => hnot (List.mem_append_right _ (by simp [heq]))⟩

theorem readFloat_eq_some_iff : readFloat raw = some x ↔ Spells raw x := by
  have hplain : ∀ cs, dropUnderscores ' ' ((Text.trimList raw.toList).map plainDigit) = some cs ↔ Plain raw cs := by
    intro cs
    rw [dropUnderscores_eq_some_iff]
    constructor
    · rintro ⟨-, hgrouped, heq⟩
      exact ⟨_, Text.leaves_trimList _, hgrouped, heq⟩
    · rintro ⟨word, hword, hgrouped, heq⟩
      rw [Text.trimList_eq_iff.2 hword]
      exact ⟨fun hspace => absurd hspace (by decide), hgrouped, heq⟩
  have hinfinity : ∀ cs : List Char, cs ∈ infinityWords ↔ cs = "inf".toList ∨ cs = "infinity".toList := fun cs => by
    simp only [infinityWords, List.mem_cons, List.not_mem_nil, or_false]
  constructor
  · intro h
    obtain ⟨cs, hcs, h⟩ := Option.bind_eq_some_iff.1 h
    rcases hsign : splitSign cs with ⟨negative, size⟩
    rw [hsign] at h
    refine ⟨cs, negative, size, (hplain cs).1 hcs, splitSign_eq_iff.1 hsign, ?_⟩
    simp only [Text.ofList_eq_iff, ← hinfinity] at h
    split at h
    · next hsize =>
      cases h
      exact .infinity hsize
    · split at h
      · next hsize =>
        cases h
        exact .undefined hsize
      · obtain ⟨digits, e, hdecimal, rfl⟩ := readDecimal_eq_some_iff.1 h
        exact .decimal hdecimal
  · rintro ⟨cs, negative, size, hcs, hsign, hsized⟩
    refine Option.bind_eq_some_iff.2 ⟨cs, (hplain cs).2 hcs, ?_⟩
    rw [splitSign_eq_iff.2 hsign]
    simp only [Text.ofList_eq_iff, ← hinfinity]
    cases hsized with
    | infinity h => exact if_pos h
    | undefined h =>
      have hnot : "nan".toList ∉ infinityWords := by decide
      rw [h, if_neg hnot, if_pos rfl]
    | decimal h =>
      rw [if_neg h.not_word.1, if_neg h.not_word.2]
      exact readDecimal_eq_some_iff.2 ⟨_, _, h, rfl⟩

/-- A number without a minus sign that is above all finite ones: infinity by name, or a decimal too large for them. -/
inductive Exceeds : List Char → Prop
  | infinity {size : List Char} (h : size.map Text.lowerChar ∈ infinityWords) : Exceeds size
  | decimal {size : List Char} {digits : Nat} {e : Int} (h : Decimal size digits e)
      (hle : (Binary64.overflow : ℚ) ≤ digits * 10 ^ e) : Exceeds size

theorem sized_infinity_iff : Sized false size Binary64.infinity ↔ Exceeds size := by
  constructor
  · generalize hx : Binary64.infinity = x
    intro h
    cases h with
    | infinity h => exact .infinity h
    | undefined _ => exact absurd hx (by decide)
    | decimal h => exact .decimal h (Binary64.ofDecimal_eq_infinity_iff.1 hx.symm)
  · intro h
    cases h with
    | infinity h => exact .infinity h
    | decimal h hle =>
      rw [← Binary64.ofDecimal_eq_infinity_iff.2 hle]
      exact .decimal h

theorem Sized.isNegative (h : Sized true size x) : x.isNegative = true := by
  cases h with
  | infinity _ => decide
  | undefined _ => decide
  | decimal _ => exact Binary64.isNegative_ofDecimal _ _ _

/-- A text stands for more than any finite number. -/
def Endless (raw : String) : Prop := ∃ cs size, Plain raw cs ∧ Signed cs false size ∧ Exceeds size

theorem spells_infinity_iff : Spells raw Binary64.infinity ↔ Endless raw := by
  constructor
  · rintro ⟨cs, negative, size, hcs, hsign, hsized⟩
    cases negative with
    | true => exact absurd hsized.isNegative (by decide)
    | false => exact ⟨cs, size, hcs, hsign, sized_infinity_iff.1 hsized⟩
  · rintro ⟨cs, size, hcs, hsign, hexceeds⟩
    exact ⟨cs, false, size, hcs, hsign, sized_infinity_iff.2 hexceeds⟩

theorem Spells.unique {y : Binary64} (h : Spells raw x) (h' : Spells raw y) : x = y :=
  Option.some.inj ((readFloat_eq_some_iff.2 h).symm.trans (readFloat_eq_some_iff.2 h'))

end Numeral
end AttestationTrust
