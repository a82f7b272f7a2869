import AttestationTrust.Base64
/-!
# What base64 renders it reads back

Three octets are four values of six bits.  A whole quad is read back as its three octets whatever follows it, and an
unfinished one as the one or two octets that its values settle, so the strict reader takes a rendering to the
octets that were rendered (`Base64.decodeStrict_encode`).  A rendering holds nothing but characters of its
alphabet and padding (`Base64.mem_encodeWith`), and it is never shorter than what it renders
(`Base64.length_le_encode`).  A text of ASCII is as good as its octets (`Base64.asciiOf_eq_some_iff`).
-/
namespace AttestationTrust
namespace Base64

/-! ## Octets as characters -/

/-- The characters that octets stand for in ASCII. -/
def characters (cs : Bytes) : List Char := cs.map fun b => Char.ofNat b.toNat

theorem toNat_ofNat_of_ascii {b : UInt8} (hb : b < 0x80) : (Char.ofNat b.toNat).toNat = b.toNat := by
  have hlt : b.toNat < 128 := UInt8.lt_iff_toNat_lt.1 hb
  rw [Char.ofNat, dif_pos (.inl (by omega))]
  rfl

theorem asciiOf_characters {cs : Bytes} (h : ∀ b ∈ cs, b < 0x80) :
    asciiOf (String.ofList (characters cs)) = some cs := by
  have hall : (characters cs).all (·.toNat < 128) = true := by
    simp only [characters, List.all_eq_true, List.mem_map]
    rintro _ ⟨b, hb, rfl⟩
    rw [toNat_ofNat_of_ascii (h b hb)]
    exact decide_eq_true (UInt8.lt_iff_toNat_lt.1 (h b hb))
  have hback : (characters cs).map (fun c => UInt8.ofNat c.toNat) = cs := by
    rw [characters, List.map_map]
    exact (List.map_congr_left fun b hb => by simp [toNat_ofNat_of_ascii (h b hb)]).trans (List.map_id _)
  rw [asciiOf, String.toList_ofList, if_pos hall, hback]

/-- A text is in ASCII when it consists of the characters of some octets of ASCII. -/
theorem asciiOf_eq_some_iff {t : List Char} {cs : Bytes} :
    asciiOf (String.ofList t) = some cs ↔ t = characters cs ∧ ∀ b ∈ cs, b < 0x80 := by
  constructor
  · intro h
    rw [asciiOf, String.toList_ofList] at h
    split at h
    · next hall =>
      cases h
      have hlt : ∀ c ∈ t, c.toNat < 128 := fun c hc => of_decide_eq_true (List.all_eq_true.1 hall c hc)
      have hnat : ∀ c ∈ t, (UInt8.ofNat c.toNat).toNat = c.toNat := fun c hc => by
        rw [UInt8.toNat_ofNat', Nat.mod_eq_of_lt (Nat.lt_trans (hlt c hc) (by decide))]
      refine ⟨?_, ?_⟩
      · rw [characters, List.map_map]
        refine ((List.map_congr_left fun c hc => ?_).trans (List.map_id t)).symm
        rw [Function.comp_apply, hnat c hc, Char.ofNat_toNat, id]
      · intro b hb
        obtain ⟨c, hc, rfl⟩ := List.mem_map.1 hb
        rw [UInt8.lt_iff_toNat_lt, hnat c hc]
        exact hlt c hc
    · cases h
  · rintro ⟨rfl, h⟩
    exact asciiOf_characters h

/-! ## Octets and their six-bit values -/

theorem octet_of_mod {m : Nat} {b : UInt8} (h : m % 256 = b.toNat) : UInt8.ofNat m = b := by
  apply UInt8.toNat_inj.1
  rw [UInt8.toNat_ofNat', h]

variable (x y z : UInt8) {n : Nat}

/-- Three octets, taken apart into six-bit values and put together again. -/
theorem quad_values (hn : n = x.toNat * 65536 + y.toNat * 256 + z.toNat) :
    quad (n / 262144) (n / 4096 % 64) (n / 64 % 64) (n % 64) = [x, y, z] := by
  have hx := x.toNat_lt
  have hy := y.toNat_lt
  have hz := z.toNat_lt
  unfold quad
  rw [octet_of_mod (b := x) (by omega), octet_of_mod (b := y) (by omega), octet_of_mod (b := z) (by omega)]

theorem settled_two (hn : n = x.toNat * 1024 + y.toNat * 4) :
    settled [n / 4096, n / 64 % 64, n % 64] = [x, y] := by
  have hx := x.toNat_lt
  have hy := y.toNat_lt
  simp only [settled]
  rw [octet_of_mod (b := x) (by omega), octet_of_mod (b := y) (by omega)]

theorem settled_one (hn : n = x.toNat * 16) : settled [n / 64, n % 64] = [x] := by
  have hx := x.toNat_lt
  simp only [settled]
  rw [octet_of_mod (b := x) (by omega)]

/-! ## The characters of a rendering -/

theorem character_ne_pad : ∀ v < 64, Alphabet.standard.character v ≠ pad := by decide

theorem head_encode {bs rest : Bytes} {c : UInt8} (h : encode bs = c :: rest) : c ≠ pad := by
  unfold encode at h
  fun_cases encodeWith Alphabet.standard true bs with
  | case1 x y z rest n =>
    have hx := x.toNat_lt
    have hy := y.toNat_lt
    have hz := z.toNat_lt
    cases h
    exact character_ne_pad _ (by omega)
  | case2 x y n =>
    have hx := x.toNat_lt
    have hy := y.toNat_lt
    cases h
    exact character_ne_pad _ (by omega)
  | case3 x n =>
    have hx := x.toNat_lt
    cases h
    exact character_ne_pad _ (by omega)
  | case4 => cases h

/-- A rendering consists of characters of its alphabet and padding. -/
theorem mem_encodeWith {a : Alphabet} {padded : Bool} {bs : Bytes} {c : UInt8} (hc : c ∈ encodeWith a padded bs) :
    c = pad ∨ ∃ v < 64, c = a.character v := by
  fun_induction encodeWith a padded bs with
  | case1 x y z rest n ih =>
    have hx := x.toNat_lt
    have hy := y.toNat_lt
    have hz := z.toNat_lt
    simp only [List.mem_cons] at hc
    rcases hc with rfl | rfl | rfl | rfl | hc
    · exact .inr ⟨_, by omega, rfl⟩
    · exact .inr ⟨_, by omega, rfl⟩
    · exact .inr ⟨_, by omega, rfl⟩
    · exact .inr ⟨_, by omega, rfl⟩
    · exact ih hc
  | case2 x y n =>
    have hx := x.toNat_lt
    have hy := y.toNat_lt
    simp only [List.cons_append, List.nil_append, List.mem_cons] at hc
    rcases hc with rfl | rfl | rfl | hc
    · exact .inr ⟨_, by omega, rfl⟩
    · exact .inr ⟨_, by omega, rfl⟩
    · exact .inr ⟨_, by omega, rfl⟩
    · cases padded with
      | true => exact .inl (List.mem_singleton.1 hc)
      | false => cases hc
  | case3 x n =>
    have hx := x.toNat_lt
    simp only [List.cons_append, List.nil_append, List.mem_cons] at hc
    rcases hc with rfl | rfl | hc
    · exact .inr ⟨_, by omega, rfl⟩
    · exact .inr ⟨_, by omega, rfl⟩
    · cases padded with
      | true => exact .inl (by simpa using hc)
      | false => cases hc
  | case4 => cases hc

theorem mem_encode {bs : Bytes} {c : UInt8} (hc : c ∈ encode bs) :
    c = pad ∨ ∃ v < 64, c = Alphabet.standard.character v := mem_encodeWith hc

theorem length_le_encode (bs : Bytes) : bs.length ≤ (encode bs).length := by
  unfold encode
  fun_induction encodeWith Alphabet.standard true bs with
  | case1 x y z rest n ih =>
    simp only [List.length_cons]
    omega
  | case2 | case3 | case4 => simp

/-! ## The lenient reader -/

theorem readLenient_cons_of_foreign {vs : List Nat} {pads : Nat} {c : UInt8} {rest : Bytes} (hc : c ≠ pad)
    (hv : valueOf c = none) : readLenient vs pads (c :: rest) = readLenient vs pads rest := by
  rw [readLenient, if_neg hc, hv]

/-! ## The strict reader -/

section

variable {a b c d : Nat} (ha : a < 64) (hb : b < 64) (hc : c < 64) (hd : d < 64) (rest : Bytes)
include ha hb

/-- A whole quad is read whatever follows it. -/
theorem readStrict_quad (hc : c < 64) (hd : d < 64) :
    readStrict [] 0 false (Alphabet.standard.character a :: Alphabet.standard.character b ::
        Alphabet.standard.character c :: Alphabet.standard.character d :: rest) =
      (readStrict [] 0 false rest).map (quad a b c d ++ ·) := by
  simp [readStrict, character_ne_pad, valueOf_character, ha, hb, hc, hd]

theorem readStrict_three (hc : c < 64) :
    readStrict [] 0 false [Alphabet.standard.character a, Alphabet.standard.character b,
      Alphabet.standard.character c, pad] = some (settled [a, b, c]) := by
  simp [readStrict, character_ne_pad, valueOf_character, ha, hb, hc]

theorem readStrict_two :
    readStrict [] 0 false [Alphabet.standard.character a, Alphabet.standard.character b, pad, pad] =
      some (settled [a, b]) := by
  simp [readStrict, character_ne_pad, valueOf_character, ha, hb]

end

theorem readStrict_encode (bs : Bytes) : readStrict [] 0 false (encode bs) = some bs := by
  unfold encode
  fun_induction encodeWith Alphabet.standard true bs with
  | case1 x y z rest n ih =>
    have hx := x.toNat_lt
    have hy := y.toNat_lt
    have hz := z.toNat_lt
    rw [readStrict_quad (by omega) (by omega) _ (by omega) (by omega), ih, quad_values x y z rfl]
    rfl
  | case2 x y n =>
    have hx := x.toNat_lt
    have hy := y.toNat_lt
    exact (readStrict_three (by omega) (by omega) (by omega)).trans (congrArg some (settled_two x y rfl))
  | case3 x n =>
    have hx := x.toNat_lt
    exact (readStrict_two (by omega) (by omega)).trans (congrArg some (settled_one x rfl))
  | case4 => rfl

/-- The strict reader takes a rendering back to the octets. -/
theorem decodeStrict_encode (bs : Bytes) : decodeStrict (encode bs) = some bs := by
  have hread := readStrict_encode bs
  cases hencoded : encode bs with
  | nil => rw [← hread, hencoded]; rfl
  | cons c rest => rw [decodeStrict, if_neg (head_encode hencoded), ← hencoded, hread]

end Base64
end AttestationTrust
