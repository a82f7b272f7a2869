import AttestationTrust.Anchor
import AttestationTrust.Proofs.Blanks
/-!
# Spellings of a model's identifier

The sixteen octets that identify a model of authenticators are written as thirty-two hexadecimal digits in either case,
with hyphens anywhere among them and blanks around (`Aaguid.Spells`); the usual groups are one way of that
(`Aaguid.spells_text`).  Every such text is read as the octets, and a text that is read as octets at all has their
digits in it and, hyphens and white space apart, nothing else (`Aaguid.canonical_of_ofText?`).  So texts of two models
never come to the same digits, and a lookup does not see how its model is written (`Aaguid.spellings_are_one`).
-/
namespace AttestationTrust

namespace Text

/-- A function that does not tell the cases of an ASCII character apart does not tell those of any. -/
theorem apply_lowerChar {α : Type} {f : Char → α} (h : ∀ n < 128, f (lowerChar (Char.ofNat n)) = f (Char.ofNat n))
    (c : Char) : f (lowerChar c) = f c := by
  by_cases hc : c.toNat < 128
  · have hn := h c.toNat hc
    rwa [Char.ofNat_toNat] at hn
  · have hupper : ¬ ('A' ≤ c ∧ c ≤ 'Z') := fun ⟨_, hle⟩ => hc (Nat.lt_of_le_of_lt hle (by decide))
    rw [lowerChar, if_neg hupper]

theorem filter_map_lowerChar {p : Char → Bool} (h : ∀ c, p (lowerChar c) = p c) (cs : List Char) :
    (cs.map lowerChar).filter p = (cs.filter p).map lowerChar := by
  have hp : p ∘ lowerChar = p := funext h
  rw [List.filter_map, hp]

end Text

namespace Hex

open Text (lowerChar)

variable {c : Char} {n : Nat} {cs : List Char} {bs : Bytes}

theorem valueOf_lowerChar (c : Char) : valueOf (lowerChar c) = valueOf c := Text.apply_lowerChar (by decide) c

theorem isGap_lowerChar (c : Char) : isGap (lowerChar c) = isGap c := Text.apply_lowerChar (by decide) c

theorem ne_hyphen_lowerChar (c : Char) : (lowerChar c != '-') = (c != '-') :=
  Text.apply_lowerChar (f := (· != '-')) (by decide) c

theorem toNat_lt_of_valueOf (h : valueOf c = some n) : c.toNat < 128 := by
  have hle : ∀ d : Char, c ≤ d → d.toNat < 128 → c.toNat < 128 := fun d hcd hd => Nat.lt_of_le_of_lt hcd hd
  unfold valueOf at h
  split at h
  · next hdigit => exact hle _ hdigit.2 (by decide)
  · split at h
    · next hlower => exact hle _ hlower.2 (by decide)
    · split at h
      · next hupper => exact hle _ hupper.2 (by decide)
      · cases h

/-- A character that has a value is the digit of that value in one of its cases. -/
theorem digit_of_valueOf (h : valueOf c = some n) :
    n < 16 ∧ lowerChar c = digitOf n ∧ isGap c = false ∧ Text.isBlank c = false := by
  have hall : ∀ k < 128, ∀ m ∈ valueOf (Char.ofNat k), m < 16 ∧ lowerChar (Char.ofNat k) = digitOf m ∧
      isGap (Char.ofNat k) = false ∧ Text.isBlank (Char.ofNat k) = false := by decide
  have hc := hall c.toNat (toNat_lt_of_valueOf h)
  rw [Char.ofNat_toNat] at hc
  exact hc n h

theorem decode_of_isGap (h : isGap c = true) (rest : List Char) : decode (c :: rest) = decode rest := by
  cases rest <;> simp [decode, h]

theorem decode_map_lowerChar (cs : List Char) : decode (cs.map lowerChar) = decode cs := by
  fun_induction decode cs with
  | case1 => rfl
  | case2 c rest hgap ih => rw [List.map_cons, decode_of_isGap (by rw [isGap_lowerChar, hgap]), ih]
  | case3 c hgap => simp [decode, isGap_lowerChar, hgap]
  | case4 c hgap d rest hi lo hd hc ih =>
    simp [decode, isGap_lowerChar, valueOf_lowerChar, hgap, hc, hd, ih]
  | case5 c hgap d rest hnone =>
    simp only [List.map_cons, decode, isGap_lowerChar, valueOf_lowerChar, hgap]
    rfl

theorem encode_cons (b : UInt8) (bs : Bytes) : encode (b :: bs) = encodeByte b ++ encode bs := List.flatMap_cons

theorem encode_injective {bs bs' : Bytes} (h : encode bs = encode bs') : bs = bs' := by
  have hdecode := congrArg decode h
  rwa [decode_encode, decode_encode, Option.some.injEq] at hdecode

/-- The digits of octets are read in either case. -/
theorem decode_of_map_lowerChar (h : cs.map lowerChar = encode bs) : decode cs = some bs := by
  rw [← decode_map_lowerChar, h, decode_encode]

theorem encodeByte_ofNat {hi lo : Nat} (hhi : hi < 16) (hlo : lo < 16) :
    encodeByte (UInt8.ofNat (hi * 16 + lo)) = [digitOf hi, digitOf lo] := by
  have hlt : hi * 16 + lo < 256 := by omega
  have hbyte : (UInt8.ofNat (hi * 16 + lo)).toNat = hi * 16 + lo := UInt8.toNat_ofNat_of_lt' hlt
  have hdiv : (hi * 16 + lo) / 16 = hi := by omega
  have hmod : (hi * 16 + lo) % 16 = lo := by omega
  rw [encodeByte, hbyte, hdiv, hmod]

/-- What is read as octets is their digits, and white space between them. -/
theorem map_lowerChar_of_decode (h : decode cs = some bs) : (cs.filter (!isGap ·)).map lowerChar = encode bs := by
  fun_induction decode cs generalizing bs with
  | case1 =>
    cases h
    rfl
  | case2 c rest hgap ih => rw [List.filter_cons_of_neg (by simp [hgap]), ih h]
  | case3 => cases h
  | case4 c hgap d rest hi lo hd hc ih =>
    obtain ⟨octets, hrest, rfl⟩ := Option.map_eq_some_iff.1 h
    obtain ⟨hhi, hchi, -, -⟩ := digit_of_valueOf hc
    obtain ⟨hlo, hdlo, hdgap, -⟩ := digit_of_valueOf hd
    rw [List.filter_cons_of_pos (by simp [hgap]), List.filter_cons_of_pos (by simp [hdgap]), List.map_cons,
      List.map_cons, ih hrest, hchi, hdlo, encode_cons, encodeByte_ofNat hhi hlo]
    rfl
  | case5 => cases h

theorem digitOf_of_mem_encode (h : c ∈ encode bs) : ∃ n < 16, digitOf n = c := by
  obtain ⟨b, -, hc⟩ := List.mem_flatMap.1 h
  have hhi : b.toNat / 16 < 16 := by have := b.toNat_lt; omega
  have hlo : b.toNat % 16 < 16 := by omega
  simp only [encodeByte, List.mem_cons, List.not_mem_nil, or_false] at hc
  rcases hc with rfl | rfl
  · exact ⟨_, hhi, rfl⟩
  · exact ⟨_, hlo, rfl⟩

/-- The digits that octets are written with are in lower case, and none is a hyphen. -/
theorem clean_of_mem_encode (h : c ∈ encode bs) : lowerChar c = c ∧ (c != '-') = true := by
  have hall : ∀ n < 16, lowerChar (digitOf n) = digitOf n ∧ (digitOf n != '-') = true := by decide
  obtain ⟨n, hn, rfl⟩ := digitOf_of_mem_encode h
  exact hall n hn

theorem length_encode (bs : Bytes) : (encode bs).length = 2 * bs.length := by
  induction bs with
  | nil => rfl
  | cons b bs ih =>
    have hpair : (encodeByte b).length = 2 := rfl
    rw [encode_cons, List.length_append, hpair, ih, List.length_cons]
    omega

end Hex

namespace Aaguid

open Text (lowerChar)

variable {bs bs' : Bytes} {s s' : String} {v : Value}

/-- A value spells octets: it is them, or a text of their digits in either case, with hyphens anywhere and blanks
around. -/
inductive Spells (bs : Bytes) : Value → Prop where
  | octets : Spells bs (.bytes bs)
  | digits {s : String} {before word after : List Char} (hs : s.toList = before ++ word ++ after)
      (hbefore : ∀ c ∈ before, Text.isBlank c = true) (hafter : ∀ c ∈ after, Text.isBlank c = true)
      (hword : (word.filter (· != '-')).map lowerChar = Hex.encode bs) : Spells bs (.text s)

/-- A text without the blanks around it, in lower case, and without hyphens and ASCII white space. -/
def canonical (s : String) : List Char :=
  (Text.lower (Text.trim s)).toList.filter fun c => c != '-' && !Hex.isGap c

theorem isBlank_of_mem_word {word : List Char} {c : Char}
    (hword : (word.filter (· != '-')).map lowerChar = Hex.encode bs) (hc : c ∈ word) : Text.isBlank c = false := by
  by_cases hyphen : c = '-'
  · subst hyphen
    decide
  · have hmem : lowerChar c ∈ Hex.encode bs := by
      rw [← hword]
      exact List.mem_map_of_mem (List.mem_filter.2 ⟨hc, bne_iff_ne.2 hyphen⟩)
    obtain ⟨n, hn, hdigit⟩ := Hex.digitOf_of_mem_encode hmem
    have hvalue := Hex.valueOf_digitOf n hn
    rw [hdigit, Hex.valueOf_lowerChar] at hvalue
    exact (Hex.digit_of_valueOf hvalue).2.2.2

theorem ofText?_eq_some_iff : ofText? s = some bs ↔
    Hex.decode ((Text.trimList s.toList).filter (· != '-')) = some bs ∧ bs.length = aaguidLength := by
  unfold ofText?
  split
  · next octets hdecode =>
    rw [hdecode, Option.some.injEq]
    constructor
    · intro h
      split at h
      · next hlength =>
        cases h
        exact ⟨rfl, hlength⟩
      · cases h
    · rintro ⟨rfl, hlength⟩
      rw [if_pos hlength]
  · next hdecode => simp [hdecode]

theorem Spells.ofValue (h : Spells bs v) (hlength : bs.length = aaguidLength) : ofValue v = .ok (some bs) := by
  cases h with
  | octets =>
    rw [Aaguid.ofValue, Value.octets]
    · exact congrArg Except.ok (if_pos hlength)
    · simp
    · simp
  | digits hs hbefore hafter hword =>
    have htrim := Text.trimList_append_of_isBare hbefore hafter
      (Text.isBare_of_forall fun c hc => isBlank_of_mem_word hword hc)
    rw [Aaguid.ofValue, ofText?_eq_some_iff.2 ⟨?_, hlength⟩]
    rw [hs, htrim, Hex.decode_of_map_lowerChar hword]

theorem take_append_drop_add (cs : List Char) (i n : Nat) : (cs.drop i).take n ++ cs.drop (i + n) = cs.drop i := by
  rw [← List.drop_drop, List.take_append_drop]

theorem filter_text (hlength : bs.length = aaguidLength) : (text bs).toList.filter (· != '-') = Hex.encode bs := by
  have hpart : ∀ i n, (((Hex.encode bs).drop i).take n).filter (· != '-') = ((Hex.encode bs).drop i).take n := by
    intro i n
    refine List.filter_eq_self.2 fun c hc => ?_
    exact (Hex.clean_of_mem_encode (List.mem_of_mem_drop (List.mem_of_mem_take hc))).2
  have hlast : ((Hex.encode bs).drop 20).take 12 = (Hex.encode bs).drop 20 := by
    refine List.take_of_length_le ?_
    rw [List.length_drop, Hex.length_encode, hlength]
    decide
  have hhyphen : ['-'].filter (· != '-') = [] := rfl
  rw [text, String.toList_ofList]
  simp only [List.intercalate, List.intersperse, List.flatten_cons, List.flatten_nil, List.filter_append,
    List.nil_append, List.append_nil, hhyphen, hpart]
  rw [hlast, take_append_drop_add _ 16 4, take_append_drop_add _ 12 4, take_append_drop_add _ 8 4,
    take_append_drop_add _ 0 8, List.drop_zero]

/-- The usual rendering of an identifier, in groups with hyphens between them, spells it. -/
theorem spells_text (hlength : bs.length = aaguidLength) : Spells bs (.text (text bs)) := by
  have hs : (text bs).toList = [] ++ (text bs).toList ++ [] := by rw [List.nil_append, List.append_nil]
  refine .digits hs (by simp) (by simp) ?_
  rw [filter_text hlength]
  exact (List.map_congr_left fun c hc => (Hex.clean_of_mem_encode hc).1).trans (List.map_id _)

theorem canonical_eq (s : String) : canonical s =
    (((Text.trimList s.toList).filter (· != '-')).filter (!Hex.isGap ·)).map lowerChar := by
  have hkeeps : ∀ c, (lowerChar c != '-' && !Hex.isGap (lowerChar c)) = (c != '-' && !Hex.isGap c) := fun c => by
    rw [Hex.ne_hyphen_lowerChar, Hex.isGap_lowerChar]
  rw [canonical, Text.lower, Text.trim, String.toList_ofList, String.toList_ofList,
    Text.filter_map_lowerChar hkeeps, List.filter_filter]
  simp only [Bool.and_comm]

/-- A text that is read as octets is a rendering of them. -/
theorem canonical_of_ofText? (h : ofText? s = some bs) : canonical s = Hex.encode bs := by
  rw [canonical_eq, Hex.map_lowerChar_of_decode (ofText?_eq_some_iff.1 h).1]

theorem findByAaguid_eq_find (h : ofValue v = .ok (some bs)) (r : Repository) :
    r.findByAaguid v = r.find (.aaguid bs) := by
  rw [Repository.findByAaguid, h]
  rfl

/-- **Every spelling of a model's identifier is the same identifier.**  The octets and every text that spells them are
read as them.  A text that is read as the octets is their hexadecimal digits, once it is trimmed and in lower case and
without hyphens and white space; so two texts that are read as octets come to the same digits just when the octets are
the same.  A lookup in any repository does the same for every value that is read as the octets as for the octets
themselves. -/
theorem spellings_are_one (bs : Bytes) (hlength : bs.length = aaguidLength) :
    (∀ v, Spells bs v → ofValue v = .ok (some bs)) ∧
    (∀ s, ofValue (.text s) = .ok (some bs) → canonical s = Hex.encode bs) ∧
    (∀ s s' bs', ofValue (.text s) = .ok (some bs) → ofValue (.text s') = .ok (some bs') →
      (canonical s = canonical s' ↔ bs = bs')) ∧
    (∀ v, ofValue v = .ok (some bs) → ∀ r : Repository, r.findByAaguid v = r.findByAaguid (.bytes bs)) ∧
    ∀ v v', Spells bs v → Spells bs v' → ∀ r : Repository, r.findByAaguid v = r.findByAaguid v' := by
  have hcanonical : ∀ {s : String} {bs : Bytes}, ofValue (.text s) = .ok (some bs) → canonical s = Hex.encode bs :=
    fun h => canonical_of_ofText? (Except.ok.inj h)
  have hfind : ∀ v, ofValue v = .ok (some bs) → ∀ r : Repository, r.findByAaguid v = r.find (.aaguid bs) :=
    fun v h => findByAaguid_eq_find h
  refine ⟨fun v h => h.ofValue hlength, fun s => hcanonical, fun s s' bs' h h' => ?_, fun v h r => ?_,
    fun v v' h h' r => ?_⟩
  · rw [hcanonical h, hcanonical h']
    exact ⟨Hex.encode_injective, congrArg Hex.encode⟩
  · rw [hfind v h, hfind _ (Spells.octets.ofValue hlength)]
  · rw [hfind v (h.ofValue hlength), hfind v' (h'.ofValue hlength)]

def pairedOctets : Bytes :=
  [0x00, 0x11, 0x22, 0x33, 0x44, 0x55, 0x66, 0x77, 0x88, 0x99, 0xAA, 0xBB, 0xCC, 0xDD, 0xEE, 0xFF]

theorem spellings_are_one_in_mixed_case : pairedOctets.length = aaguidLength ∧
    Spells pairedOctets (.text " 00112233-4455-6677-8899-AABBccddEEFF-\n") ∧
    ofValue (.text " 00112233-4455-6677-8899-AABBccddEEFF-\n") = .ok (some pairedOctets) ∧
    ∀ r : Repository, r.findByAaguid (.text " 00112233-4455-6677-8899-AABBccddEEFF-\n") =
      r.findByAaguid (.bytes pairedOctets) := by
  have hs : " 00112233-4455-6677-8899-AABBccddEEFF-\n".toList =
      [' '] ++ "00112233-4455-6677-8899-AABBccddEEFF-".toList ++ ['\n'] := rfl
  have hspells : Spells pairedOctets (.text " 00112233-4455-6677-8899-AABBccddEEFF-\n") :=
    .digits hs (List.all_eq_true.1 (by decide)) (List.all_eq_true.1 (by decide)) (by decide)
  obtain ⟨hread, -, -, -, hlook⟩ := spellings_are_one pairedOctets rfl
  exact ⟨rfl, hspells, hread _ hspells, hlook _ _ hspells .octets⟩

end Aaguid
end AttestationTrust
