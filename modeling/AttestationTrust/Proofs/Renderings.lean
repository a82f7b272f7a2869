import AttestationTrust.Http
import AttestationTrust.Proofs.Action
import AttestationTrust.Proofs.Blanks
import AttestationTrust.Proofs.Quads
/-!
# Certificates in a request, in all their renderings

The URL-safe characters stand for the standard ones and nothing else, what is added to a text completes its padding and
adds none to a text that has it, and the lenient reader takes what the strict one takes to the same octets
(`Base64.decode_of_decodeStrict`).  So a certificate is read back from either rendering, padded or not, between whatever
blanks (`Http.decodeCertificate_rendering`).
-/
namespace AttestationTrust

namespace Base64

variable {a : Alphabet} {padded : Bool} {cs bs : Bytes} {c : UInt8}

/-! ## One rendering out of another -/

theorem standardise_character (a : Alphabet) : ∀ v < 64, standardise (a.character v) = Alphabet.standard.character v := by
  cases a <;> decide

theorem map_standardise_encodeWith (a : Alphabet) (padded : Bool) (bs : Bytes) :
    (encodeWith a padded bs).map standardise = encodeWith .standard padded bs := by
  have hpads : ∀ k, (List.replicate k pad).map standardise = List.replicate k pad := fun k => by
    rw [List.map_replicate]
    rfl
  fun_induction encodeWith a padded bs with
  | case1 x y z rest n ih =>
    have hx := x.toNat_lt
    have hy := y.toNat_lt
    have hz := z.toNat_lt
    simp only [List.map_cons, ih, encodeWith]
    repeat rw [standardise_character a _ (by omega)]
  | case2 x y n =>
    have hx := x.toNat_lt
    have hy := y.toNat_lt
    simp only [List.map_append, List.map_cons, List.map_nil, encodeWith]
    repeat rw [standardise_character a _ (by omega)]
    cases padded <;> rfl
  | case3 x n =>
    have hx := x.toNat_lt
    simp only [List.map_append, List.map_cons, List.map_nil, encodeWith]
    repeat rw [standardise_character a _ (by omega)]
    cases padded <;> rfl
  | case4 => rfl

theorem padding_quad (c₁ c₂ c₃ c₄ : UInt8) (cs : Bytes) : padding (c₁ :: c₂ :: c₃ :: c₄ :: cs) = padding cs := by
  simp only [padding, List.length_cons]
  congr 1
  omega

/-- What completes the padding of a rendering makes it the padded one. -/
theorem encodeWith_append_padding (a : Alphabet) (padded : Bool) (bs : Bytes) :
    encodeWith a padded bs ++ padding (encodeWith a padded bs) = encodeWith a true bs := by
  fun_induction encodeWith a padded bs with
  | case1 x y z rest n ih =>
    rw [padding_quad, encodeWith, ← ih]
    rfl
  | case2 x y n => cases padded <;> simp [encodeWith, padding, n]
  | case3 x n => cases padded <;> simp [encodeWith, padding, n]
  | case4 => rfl

/-! ## The two readers -/

theorem readLenient_of_readStrict {vs : List Nat} {pads : Nat} {padding : Bool}
    (h : readStrict vs pads padding cs = some bs) : readLenient vs pads cs = some bs := by
  fun_induction readStrict vs pads padding cs generalizing bs with
  | case1 => exact h
  | case2 | case4 | case7 | case8 => cases h
  | case3 vs pads padding htwo hfull =>
    rw [readLenient, if_pos rfl, if_pos htwo, if_pos hfull]
    exact h
  | case5 vs pads padding rest htwo hfull ih =>
    rw [readLenient, if_pos rfl, if_pos htwo, if_neg hfull]
    exact ih h
  | case6 vs pads padding rest htwo ih =>
    rw [readLenient, if_pos rfl, if_neg htwo]
    exact ih h
  | case9 pads padding c rest hc v hv hpadding x y z ih =>
    obtain ⟨read, hread, rfl⟩ := Option.map_eq_some_iff.1 h
    rw [readLenient, if_neg hc, hv]
    dsimp only
    rw [ih hread, Option.map_some]
  | case10 vs pads padding c rest hc v hv hpadding hvs ih =>
    rw [readLenient, if_neg hc, hv]
    dsimp only
    split
    · exact absurd rfl (hvs _ _ _)
    · exact ih h

theorem decode_of_decodeStrict (h : decodeStrict cs = some bs) : decode cs = some bs := by
  unfold decodeStrict at h
  split at h
  · exact h
  · split at h
    · cases h
    · exact readLenient_of_readStrict h

theorem decodeUrl_encodeWith (a : Alphabet) (bs : Bytes) : decodeUrl (encodeWith a true bs) = some bs := by
  rw [decodeUrl, map_standardise_encodeWith]
  exact decode_of_decodeStrict (decodeStrict_encode bs)

/-- Characters by which a text is taken to be URL-safe. -/
def IsMarked (cs : Bytes) : Prop := 45 ∈ cs ∨ 95 ∈ cs

instance (cs : Bytes) : Decidable (IsMarked cs) := inferInstanceAs (Decidable (_ ∨ _))

/-- A text that is taken to be URL-safe. -/
def IsMarkedText (t : List Char) : Prop := '-' ∈ t ∨ '_' ∈ t

instance (t : List Char) : Decidable (IsMarkedText t) := inferInstanceAs (Decidable (_ ∨ _))

theorem mem_characters_iff {c : UInt8} (hc : c < 0x80) (hcs : ∀ b ∈ cs, b < 0x80) :
    Char.ofNat c.toNat ∈ characters cs ↔ c ∈ cs := by
  rw [characters, List.mem_map]
  constructor
  · rintro ⟨b, hb, heq⟩
    have hnat := congrArg Char.toNat heq
    rw [toNat_ofNat_of_ascii hc, toNat_ofNat_of_ascii (hcs b hb)] at hnat
    rwa [← UInt8.toNat_inj.1 hnat]
  · exact fun h => ⟨c, h, rfl⟩

theorem isMarkedText_characters_iff (hcs : ∀ b ∈ cs, b < 0x80) : IsMarkedText (characters cs) ↔ IsMarked cs :=
  or_congr (mem_characters_iff (by decide : (45 : UInt8) < 0x80) hcs)
    (mem_characters_iff (by decide : (95 : UInt8) < 0x80) hcs)

/-- Without such characters a rendering is the standard one. -/
theorem encodeWith_of_not_isMarked (h : ¬ IsMarked (encodeWith a padded bs)) :
    encodeWith a padded bs = encodeWith .standard padded bs := by
  rw [IsMarked, not_or] at h
  rw [← map_standardise_encodeWith a padded bs]
  refine ((List.map_congr_left fun c hc => ?_).trans (List.map_id _)).symm
  have hdash : c ≠ 45 := fun heq => h.1 (heq ▸ hc)
  have hline : c ≠ 95 := fun heq => h.2 (heq ▸ hc)
  rw [standardise, if_neg hdash, if_neg hline, id]

theorem clean_character (a : Alphabet) : ∀ v < 64, a.character v < 0x80 ∧
    Text.isBlank (Char.ofNat (a.character v).toNat) = false := by
  cases a <;> decide

theorem clean_of_mem_encodeWith (hc : c ∈ encodeWith a padded bs) :
    c < 0x80 ∧ Text.isBlank (Char.ofNat c.toNat) = false := by
  rcases mem_encodeWith hc with rfl | ⟨v, hv, rfl⟩
  · decide
  · exact clean_character a v hv

theorem encodeWith_ne_nil (h : bs ≠ []) : encodeWith a padded bs ≠ [] := by
  fun_cases encodeWith a padded bs <;> simp_all

end Base64

namespace Http

open Base64 (Alphabet IsMarked characters encodeWith padding asciiOf_eq_some_iff)

variable {s : String} {t : List Char} {cs bs : Bytes}

/-- The octets of a certificate in characters of ASCII. -/
def octets? (cs : Bytes) : Option Bytes :=
  if IsMarked cs then Base64.decodeUrl (cs ++ padding cs) else Base64.decodeStrict (cs ++ padding cs)

theorem characters_append_padding (cs : Bytes) :
    characters cs ++ List.replicate ((4 - (characters cs).length % 4) % 4) '=' = characters (cs ++ padding cs) := by
  rw [characters, characters, padding, List.map_append, List.map_replicate, List.length_map]
  rfl

theorem decodeCertificate_characters (ht : Text.trimList s.toList = characters cs) (hne : cs ≠ [])
    (hcs : ∀ b ∈ cs, b < 0x80) :
    decodeCertificate (.text s) = ((octets? cs).map .ok).getD (.error (.value .notBase64)) := by
  have hpadded : ∀ b ∈ cs ++ padding cs, b < 0x80 := by
    intro b hb
    rcases List.mem_append.1 hb with hb | hb
    · exact hcs b hb
    · rw [List.eq_of_mem_replicate hb]
      decide
  have hmarked : ((characters cs).contains '-' || (characters cs).contains '_') = true ↔ IsMarked cs := by
    rw [Bool.or_eq_true, List.contains_iff_mem, List.contains_iff_mem]
    exact Base64.isMarkedText_characters_iff hcs
  have hnil : characters cs ≠ [] := fun h => hne (List.map_eq_nil_iff.1 h)
  unfold decodeCertificate octets?
  simp only [ht, hnil, if_false, hmarked, characters_append_padding, Base64.asciiOf_characters hpadded, Option.bind_some]
  generalize (if IsMarked cs then _ else _) = read
  cases read <;> rfl

/-- A certificate is read from the characters between the blanks, all of ASCII and one at least. -/
theorem decodeCertificate_eq_ok_iff : decodeCertificate (.text s) = .ok bs ↔
    ∃ cs, cs ≠ [] ∧ Text.trimList s.toList = characters cs ∧ (∀ b ∈ cs, b < 0x80) ∧ octets? cs = some bs := by
  constructor
  · intro h
    obtain ⟨cs, ht, hcs⟩ : ∃ cs, Text.trimList s.toList = characters cs ∧ ∀ b ∈ cs, b < 0x80 := by
      have hascii : ∃ ds, Base64.asciiOf (String.ofList (Text.trimList s.toList ++
          List.replicate ((4 - (Text.trimList s.toList).length % 4) % 4) '=')) = some ds := by
        refine Option.ne_none_iff_exists'.1 fun hnone => ?_
        simp only [decodeCertificate, hnone, Option.bind_none, ite_self] at h
        cases h
      obtain ⟨ds, hds⟩ := hascii
      obtain ⟨heq, hlt⟩ := asciiOf_eq_some_iff.1 hds
      obtain ⟨cs, pads, rfl, ht, -⟩ := List.map_eq_append_iff.1 heq.symm
      exact ⟨cs, ht.symm, fun b hb => hlt b (List.mem_append_left _ hb)⟩
    have hne : cs ≠ [] := by
      rintro rfl
      have hnil : Text.trimList s.toList = [] := ht
      simp only [decodeCertificate, hnil, if_true] at h
      cases h
    rw [decodeCertificate_characters ht hne hcs] at h
    refine ⟨cs, hne, ht, hcs, ?_⟩
    cases hread : octets? cs with
    | none =>
      rw [hread] at h
      cases h
    | some read =>
      rw [hread] at h
      cases h
      rfl
  · rintro ⟨cs, hne, ht, hcs, hoctets⟩
    rw [decodeCertificate_characters ht hne hcs, hoctets]
    rfl

/-- A certificate is read back from each of its renderings, between whatever blanks. -/
theorem decodeCertificate_rendering (a : Alphabet) (padded : Bool) {before after : List Char} (hbs : bs ≠ [])
    (hbefore : ∀ c ∈ before, Text.isBlank c = true) (hafter : ∀ c ∈ after, Text.isBlank c = true) :
    decodeCertificate (.text (String.ofList (before ++ characters (encodeWith a padded bs) ++ after))) = .ok bs := by
  have hne : encodeWith a padded bs ≠ [] := Base64.encodeWith_ne_nil hbs
  have hclean : ∀ c ∈ characters (encodeWith a padded bs), Text.isBlank c = false := by
    intro c hc
    obtain ⟨b, hb, rfl⟩ := List.mem_map.1 hc
    exact (Base64.clean_of_mem_encodeWith hb).2
  refine decodeCertificate_eq_ok_iff.2 ⟨encodeWith a padded bs, hne, ?trimmed,
    fun b hb => (Base64.clean_of_mem_encodeWith hb).1, ?octets⟩
  case trimmed =>
    rw [String.toList_ofList]
    exact Text.trimList_append_of_isBare hbefore hafter (Text.isBare_of_forall hclean)
  case octets =>
    rw [octets?, Base64.encodeWith_append_padding]
    -- marked or not, the reader that is chosen takes the rendering at hand, which need not be in its own alphabet
    split
    · exact Base64.decodeUrl_encodeWith a bs
    · next hmarked =>
      have hstandard := Base64.encodeWith_of_not_isMarked hmarked
      rw [← Base64.encodeWith_append_padding a padded, hstandard, Base64.encodeWith_append_padding]
      exact Base64.decodeStrict_encode bs

/-- Four octets in the URL-safe alphabet, without their padding. -/
theorem decodeCertificate_rendering_unpadded :
    decodeCertificate (.text "\n -_8-AQ\t") = .ok [0xfb, 0xff, 0x3e, 0x01] := by
  have hread := @decodeCertificate_rendering [0xfb, 0xff, 0x3e, 0x01] .urlSafe false ['\n', ' '] ['\t'] (by decide)
    (List.all_eq_true.1 (by decide)) (List.all_eq_true.1 (by decide))
  have htext : String.ofList (['\n', ' '] ++ characters (encodeWith .urlSafe false [0xfb, 0xff, 0x3e, 0x01]) ++ ['\t']) =
      "\n -_8-AQ\t" := by decide
  rwa [htext] at hread

end Http
end AttestationTrust
