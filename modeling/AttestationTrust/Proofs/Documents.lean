import AttestationTrust.Proofs.Action
import AttestationTrust.Json.Reader
/-!
# Documents in UTF-8

A document may come in UTF-16 or UTF-32 too, and which it is in is found from its first octets.  A document that is read
as UTF-8 is always found to be in UTF-8: the other encodings show in a mark or in a zero among the first two octets,
and no document in UTF-8 has either (`Json.ofBytes_eq_ofUtf8`).
-/
namespace AttestationTrust

namespace Text
namespace Utf8

theorem three_true {a b c : UInt8} {ch : Char} (h : three false a b c = some ch) : three true a b c = some ch := by
  unfold three at h ⊢
  dsimp only at h ⊢
  split at h
  · rename_i hc
    rw [if_pos (by simp_all)]
    exact h
  · cases h

/-- What is read with no surrogate in it is read as well where surrogates may pass. -/
theorem read_true {bs : Bytes} {cs : List Char} (h : read false bs = some cs) : read true bs = some cs := by
  fun_induction read false bs generalizing cs with
  | case1 => exact h
  | case2 a rest ha ih =>
    obtain ⟨cs', hrest, rfl⟩ := Option.map_eq_some_iff.1 h
    unfold read
    rw [if_pos ha, ih hrest]
    rfl
  | case4 a ha hc2 he0 b rest hb ih =>
    obtain ⟨cs', hrest, rfl⟩ := Option.map_eq_some_iff.1 h
    unfold read
    rw [if_neg ha, if_neg hc2, if_pos he0]
    dsimp only
    rw [if_pos hb, ih hrest]
    rfl
  | case7 a ha hc2 he0 hf0 b c rest ih =>
    obtain ⟨ch, hch, h⟩ := Option.bind_eq_some_iff.1 h
    obtain ⟨cs', hrest, rfl⟩ := Option.map_eq_some_iff.1 h
    unfold read
    rw [if_neg ha, if_neg hc2, if_neg he0, if_pos hf0]
    dsimp only
    rw [three_true hch, ih hrest]
    rfl
  | case9 a ha hc2 he0 hf0 hf5 b c d rest ih =>
    obtain ⟨ch, hch, h⟩ := Option.bind_eq_some_iff.1 h
    obtain ⟨cs', hrest, rfl⟩ := Option.map_eq_some_iff.1 h
    unfold read
    rw [if_neg ha, if_neg hc2, if_neg he0, if_neg hf0, if_pos hf5]
    dsimp only
    rw [hch, ih hrest]
    rfl
  | _ => cases h

theorem read_ascii {lenient : Bool} {bs : Bytes} (h : ∀ b ∈ bs, b < 0x80) :
    read lenient bs = some (bs.map fun b => Char.ofNat b.toNat) := by
  induction bs with
  | nil => rfl
  | cons b bs ih =>
    rw [List.forall_mem_cons] at h
    rw [read.eq_def]
    simp only [if_pos h.1, ih h.2, Option.map_some, List.map_cons]

/-- A character takes at least one octet. -/
theorem length_le_of_read {lenient : Bool} {bs : Bytes} {cs : List Char} (h : read lenient bs = some cs) :
    cs.length ≤ bs.length := by
  fun_induction read lenient bs generalizing cs with
  | case1 => cases h; exact Nat.le_refl 0
  | case2 a rest ha ih =>
    obtain ⟨cs', hrest, rfl⟩ := Option.map_eq_some_iff.1 h
    simpa using ih hrest
  | case4 a ha hc2 he0 b rest hb ih =>
    obtain ⟨cs', hrest, rfl⟩ := Option.map_eq_some_iff.1 h
    have := ih hrest
    simp only [List.length_cons]
    omega
  | case7 a ha hc2 he0 hf0 b c rest ih =>
    obtain ⟨ch, hch, h⟩ := Option.bind_eq_some_iff.1 h
    obtain ⟨cs', hrest, rfl⟩ := Option.map_eq_some_iff.1 h
    have := ih hrest
    simp only [List.length_cons]
    omega
  | case9 a ha hc2 he0 hf0 hf5 b c d rest ih =>
    obtain ⟨ch, hch, h⟩ := Option.bind_eq_some_iff.1 h
    obtain ⟨cs', hrest, rfl⟩ := Option.map_eq_some_iff.1 h
    have := ih hrest
    simp only [List.length_cons]
    omega
  | _ => cases h

/-- A zero octet is the zero character. -/
theorem read_nul {lenient : Bool} {rest : Bytes} {cs : List Char} (h : read lenient (0 :: rest) = some cs) :
    ∃ cs', cs = '\x00' :: cs' := by
  unfold read at h
  obtain ⟨cs', -, rfl⟩ := Option.map_eq_some_iff.1 (h : (read lenient rest).map ('\x00' :: ·) = some cs)
  exact ⟨cs', rfl⟩

/-- A zero is no trailing octet, so the octet before it is a character of its own. -/
theorem read_before_nul {a : UInt8} {rest : Bytes} {cs : List Char} (h : read false (a :: 0 :: rest) = some cs) :
    ∃ c cs', cs = c :: '\x00' :: cs' := by
  unfold read at h
  split at h
  · obtain ⟨cs', hrest, rfl⟩ := Option.map_eq_some_iff.1 h
    obtain ⟨cs', rfl⟩ := read_nul hrest
    exact ⟨_, cs', rfl⟩
  · split at h
    · cases h
    · split at h
      · cases h
      · split at h
        · split at h
          · rename_i heq
            cases heq
            obtain ⟨ch, hch, -⟩ := Option.bind_eq_some_iff.1 h
            simp [three, isTail] at hch
          · cases h
        · split at h
          · split at h
            · rename_i heq
              cases heq
              obtain ⟨ch, hch, -⟩ := Option.bind_eq_some_iff.1 h
              simp [four, isTail] at hch
            · cases h
          · cases h

theorem read_top {lenient : Bool} {a : UInt8} {rest : Bytes} (ha : ¬ a < 0xF5) : read lenient (a :: rest) = none := by
  have hbelow : ∀ b : UInt8, b ≤ 0xF5 → ¬ a < b := fun b hb hab => ha (UInt8.lt_of_lt_of_le hab hb)
  unfold read
  rw [if_neg (hbelow _ (by decide)), if_neg (hbelow _ (by decide)), if_neg (hbelow _ (by decide)),
    if_neg (hbelow _ (by decide)), if_neg ha]

theorem read_mark {rest : Bytes} {cs : List Char} (h : read false (0xEF :: 0xBB :: 0xBF :: rest) = some cs) :
    ∃ cs', cs = '\uFEFF' :: cs' := by
  unfold read at h
  rw [if_neg (by decide), if_neg (by decide), if_neg (by decide), if_pos (by decide)] at h
  obtain ⟨ch, hch, h⟩ := Option.bind_eq_some_iff.1 h
  obtain ⟨cs', -, rfl⟩ := Option.map_eq_some_iff.1 h
  have hmark : three false 0xEF 0xBB 0xBF = some '\uFEFF' := by decide
  rw [hmark, Option.some.injEq] at hch
  exact ⟨cs', by rw [hch]⟩

end Utf8

/-- Octets that UTF-8 reads, with no zero among the first two characters and no mark in front, are found to be UTF-8. -/
theorem Encoding.detect_eq_utf8 {bs : Bytes} {cs : List Char} (h : Utf8.read false bs = some cs)
    (hnul : ∀ cs', cs ≠ '\x00' :: cs') (hsecond : ∀ c cs', cs ≠ c :: '\x00' :: cs')
    (hmark : ∀ cs', cs ≠ '\uFEFF' :: cs') : Encoding.detect bs = .utf8 := by
  have hfirst : ∀ rest, bs ≠ 0 :: rest := by
    rintro rest rfl
    obtain ⟨cs', hcs⟩ := Utf8.read_nul h
    exact hnul cs' hcs
  have hnext : ∀ a rest, bs ≠ a :: 0 :: rest := by
    rintro a rest rfl
    obtain ⟨c, cs', hcs⟩ := Utf8.read_before_nul h
    exact hsecond c cs' hcs
  have htop : ∀ a : UInt8, ¬ a < 0xF5 → ∀ rest, bs ≠ a :: rest := by
    rintro a ha rest rfl
    rw [Utf8.read_top ha] at h
    cases h
  have hmarker : ∀ {a : UInt8} {marker : Bytes}, (∀ rest, bs ≠ a :: rest) → ¬ (a :: marker).isPrefixOf bs = true := by
    intro a marker ha hprefix
    obtain ⟨rest, rfl⟩ := List.isPrefixOf_iff_prefix.1 hprefix
    exact ha _ rfl
  have hmark' : ¬ [0xEF, 0xBB, 0xBF].isPrefixOf bs = true := by
    intro hprefix
    obtain ⟨rest, rfl⟩ := List.isPrefixOf_iff_prefix.1 hprefix
    obtain ⟨cs', hcs⟩ := Utf8.read_mark h
    exact hmark cs' hcs
  unfold Encoding.detect
  rw [if_neg (hmarker hfirst), if_neg (hmarker (htop 0xFF (by decide))), if_neg (hmarker (htop 0xFE (by decide))),
    if_neg (hmarker (htop 0xFF (by decide))), if_neg hmark']
  split
  · rw [if_neg fun ha => hfirst _ (congrArg (· :: _) ha), if_neg fun hb => hnext _ _ (congrArg (_ :: · :: _) hb)]
  · rw [if_neg fun ha => hfirst _ (congrArg (· :: _) ha), if_neg fun hb => hnext _ _ (congrArg (_ :: · :: _) hb)]
  · rfl

end Text

namespace Json

variable {c : Char} {rest r : List Char} {v : Value}

theorem readValue_nul (fuel room : Nat) (rest : List Char) :
    readValue fuel room ('\x00' :: rest) = .error .invalid := by
  cases fuel <;> rfl

/-- What stands before a zero is no number that goes on behind it: the zero is left to be read. -/
theorem readWhole_before_nul {ds : List Char} (h : readWhole (c :: '\x00' :: rest) = some (ds, r)) :
    r = '\x00' :: rest := by
  unfold readWhole at h
  split at h
  case h_1 heq =>
    cases heq
    cases h
    rfl
  case h_2 heq =>
    cases heq
    split at h
    · cases h
      rfl
    · cases h
  case h_3 => cases h

theorem readSize_before_nul {negative : Bool} (h : readSize negative (c :: '\x00' :: rest) = some (v, r)) :
    r = '\x00' :: rest := by
  obtain ⟨⟨ds, r'⟩, hwhole, h⟩ := Option.bind_eq_some_iff.1 h
  obtain rfl := readWhole_before_nul hwhole
  dsimp only [readPlaces, readPower] at h
  split at h
  · split at h
    · cases h
    · cases h
      rfl
  · cases h
    rfl

theorem readScalar_before_nul (h : readScalar (c :: '\x00' :: rest) = some (v, r)) : r = '\x00' :: rest := by
  have hword : readWord (c :: '\x00' :: rest) = none := by simp [readWord, words]
  unfold readScalar at h
  rw [hword] at h
  dsimp only at h
  split at h
  case h_1 heq =>
    cases heq
    cases h
  case h_2 => exact readSize_before_nul h

theorem readItems_nul (fuel room : Nat) (rest : List Char) :
    readItems fuel room ('\x00' :: rest) = .error .invalid := by
  cases fuel with
  | zero => rfl
  | succ fuel =>
    rw [readItems, readValue_nul]
    rfl

theorem readFields_nul (fuel room : Nat) (rest : List Char) :
    readFields fuel room ('\x00' :: rest) = .error .invalid := by
  cases fuel <;> rfl

/-- A value before a zero is a number of one digit: anything else would go on with the zero. -/
theorem readValue_before_nul (fuel room : Nat) (c : Char) (rest : List Char) :
    readValue fuel (room + 1) (c :: '\x00' :: rest) = .error .invalid ∨
      ∃ v, readValue fuel (room + 1) (c :: '\x00' :: rest) = .ok (v, '\x00' :: rest) := by
  have hblanks : skipBlanks ('\x00' :: rest) = '\x00' :: rest := rfl
  have htext : readText none ('\x00' :: rest) = none := by
    unfold readText
    rfl
  cases fuel with
  | zero => exact .inl rfl
  | succ fuel =>
    unfold readValue
    by_cases hquote : (c == Text.doubleQuote) = true
    · rw [if_pos hquote, htext]
      exact .inl rfl
    · rw [if_neg hquote]
      by_cases hopen : (c == '[' || c == '\x7b') = true
      · rw [if_pos hopen]
        dsimp only
        rw [hblanks]
        refine .inl ?_
        split
        · rename_i heq
          cases heq
        · rw [readItems_nul]
          rfl
        · rename_i heq
          cases heq
        · rw [readFields_nul]
          rfl
      · rw [if_neg hopen]
        cases hscalar : readScalar (c :: '\x00' :: rest) with
        | none => exact .inl rfl
        | some p =>
          obtain ⟨v, r⟩ := p
          obtain rfl := readScalar_before_nul hscalar
          exact .inr ⟨v, rfl⟩

variable [Limits]

/-- No document begins with a zero, with a mark, or with one character and a zero. -/
theorem parse_nul (rest : List Char) : parse ('\x00' :: rest) = .error .invalid := by
  have hblanks : skipBlanks ('\x00' :: rest) = '\x00' :: rest := rfl
  rw [parse, hblanks, readValue_nul]
  rfl

theorem parse_mark (rest : List Char) : parse ('\uFEFF' :: rest) = .error .invalid := by
  rfl

theorem parse_before_nul (c : Char) (rest : List Char) : parse (c :: '\x00' :: rest) = .error .invalid := by
  unfold parse
  by_cases hc : isBlank c = true
  · have hblanks : skipBlanks (c :: '\x00' :: rest) = '\x00' :: rest := List.dropWhile_cons_of_pos hc
    rw [hblanks, readValue_nul]
    rfl
  · have hblanks : skipBlanks (c :: '\x00' :: rest) = c :: '\x00' :: rest := List.dropWhile_cons_of_neg hc
    rw [hblanks]
    obtain ⟨room, hroom⟩ := Nat.exists_eq_succ_of_ne_zero (Nat.ne_of_gt Limits.depth_pos)
    rw [hroom]
    obtain h | ⟨v, h⟩ := readValue_before_nul (2 * (c :: '\x00' :: rest).length + 2) room c rest
    · rw [h]
      rfl
    · rw [h]
      rfl

/-- A document that is one in UTF-8, though it may stand too deep, is found to be in UTF-8. -/
theorem ofBytes_eq_ofUtf8 {bs : Bytes} (h : ofUtf8 bs ≠ .error .invalid) : ofBytes bs = ofUtf8 bs := by
  cases hread : Text.Utf8.read false bs with
  | none =>
    rw [ofUtf8, Text.Utf8.decode, hread] at h
    exact absurd rfl h
  | some cs =>
    have hparse : ofUtf8 bs = parse cs := by
      rw [ofUtf8, Text.Utf8.decode, hread]
      exact congrArg parse String.toList_ofList
    rw [hparse] at h ⊢
    have hdetect : Text.Encoding.detect bs = .utf8 := by
      refine Text.Encoding.detect_eq_utf8 hread ?_ ?_ ?_
      · rintro cs' rfl
        exact h (parse_nul cs')
      · rintro c cs' rfl
        exact h (parse_before_nul c cs')
      · rintro cs' rfl
        exact h (parse_mark cs')
    unfold ofBytes
    rw [hdetect, Text.Encoding.decode, Text.Utf8.read_true hread]
    rfl

end Json

end AttestationTrust
