import AttestationTrust.Pem
import AttestationTrust.Proofs.Documents
import AttestationTrust.Proofs.Quads
/-!
# What an armoured document holds

A document that was rendered is found again, whole and alone: its base64 holds no dash, so the marks around it are
found where they were put, and no empty line, so nothing of it passes for a header (`Pem.blocks_render`).  In the
other direction, whatever blocks a byte string holds, each is shorter than the byte string
(`Pem.length_lt_of_find?`), for a mark stands in front of it.
-/
namespace AttestationTrust

namespace Bytes

theorem cutAt_isSome_iff {marker bs : Bytes} : (cutAt marker bs).isSome = true ↔ marker <:+: bs := by
  induction bs with
  | nil => simp [cutAt]
  | cons b bs ih =>
    rw [cutAt, List.infix_cons_iff, ← ih]
    split
    · next hstart => simp [List.isPrefixOf_iff_prefix.1 hstart]
    · next hstart =>
      rw [Option.isSome_map]
      exact ⟨.inr, fun h => h.resolve_left fun hpre => hstart (List.isPrefixOf_iff_prefix.2 hpre)⟩

end Bytes

namespace Pem

/-! ## Cuts at a marker -/

/-- A match that is found is an occurrence of the marker. -/
theorem endOfMatch_sound {marker matched wanted seen rest : Bytes} {n : Nat}
    (hmarker : marker = matched ++ wanted) (hseen : matched <:+ seen)
    (h : endOfMatch marker wanted seen.length rest = some n) :
    ∃ before after, seen ++ rest = before ++ marker ++ after ∧ n = (before ++ marker).length := by
  -- what has been seen ends in the part of the marker that is no longer wanted
  induction rest generalizing matched wanted seen with
  | nil => cases h
  | cons b rest ih =>
    cases wanted with
    | nil => cases h
    | cons w more =>
      have hlength : seen.length + 1 = (seen ++ [b]).length := by simp
      have hread : seen ++ b :: rest = (seen ++ [b]) ++ rest := by simp
      rw [endOfMatch, hlength] at h
      rw [hread]
      split at h
      · -- an octet that breaks the match starts no new one
        exact ih rfl (List.nil_suffix : [] <:+ seen ++ [b]) h
      · next hb =>
        obtain rfl : b = w := Decidable.not_not.1 hb
        obtain ⟨before, rfl⟩ := hseen
        split at h
        · next hmore =>
          subst hmore
          cases h
          exact ⟨before, rest, by simp [hmarker], by simp [hmarker]⟩
        · exact ih (by simp [hmarker] : marker = matched ++ [b] ++ more) ⟨before, by simp⟩ h

/-- A cut leaves out exactly the marker. -/
theorem cutAt_sound {marker bs before after : Bytes} (h : cutAt marker bs = some (before, after)) :
    bs = before ++ marker ++ after := by
  obtain ⟨n, hn, hparts⟩ := Option.map_eq_some_iff.1 h
  obtain ⟨first, last, hbs, rfl⟩ := endOfMatch_sound rfl (List.nil_suffix : [] <:+ ([] : Bytes)) hn
  obtain rfl : bs = first ++ marker ++ last := by simpa using hbs
  simp only [Prod.mk.injEq] at hparts
  obtain ⟨rfl, rfl⟩ := hparts
  simp

theorem cutAt_eq_none {marker bs : Bytes} (h : ¬ marker <:+: bs) : cutAt marker bs = none := by
  cases hcut : cutAt marker bs with
  | none => rfl
  | some parts => exact absurd ⟨parts.1, parts.2, (cutAt_sound hcut).symm⟩ h

theorem endOfMatch_append {marker : Bytes} {w : UInt8} {more after : Bytes} {read : Nat} :
    endOfMatch marker (w :: more) read (w :: more ++ after) = some (read + (w :: more).length) := by
  induction more generalizing w read with
  | nil => simp [endOfMatch]
  | cons v more ih =>
    rw [List.cons_append, endOfMatch, if_neg (Decidable.not_not.2 rfl), if_neg (List.cons_ne_nil v more), ih]
    simp only [List.length_cons]
    congr 1
    omega

theorem endOfMatch_skip {m : UInt8} {ms before after : Bytes} {read : Nat} (h : m ∉ before) :
    endOfMatch (m :: ms) (m :: ms) read (before ++ after) =
      endOfMatch (m :: ms) (m :: ms) (read + before.length) after := by
  induction before generalizing read with
  | nil => rfl
  | cons b before ih =>
    rw [List.mem_cons, not_or] at h
    rw [List.cons_append, endOfMatch, if_pos (Ne.symm h.1), ih h.2, List.length_cons]
    congr 1
    omega

/-- A marker is found where nothing before it can begin one. -/
theorem cutAt_append {marker before after : Bytes} {m : UInt8} (hm : marker.head? = some m) (h : m ∉ before) :
    cutAt marker (before ++ (marker ++ after)) = some (before, after) := by
  obtain ⟨ms, rfl⟩ := List.head?_eq_some_iff.1 hm
  unfold cutAt
  rw [endOfMatch_skip h, endOfMatch_append]
  simp

/-! ## The lines of a body -/

theorem filter_wrap {p : UInt8 → Bool} {cs : Bytes} (hcs : ∀ c ∈ cs, p c = true) (hline : p 10 = false)
    (room : Nat) : (wrap room cs).filter p = cs := by
  fun_induction wrap room cs with
  | case1 => rfl
  | case2 c rest ih =>
    rw [List.forall_mem_cons] at hcs
    simp [hline, hcs.1, ih hcs.2]
  | case3 room c rest ih =>
    rw [List.forall_mem_cons] at hcs
    simp [hcs.1, ih hcs.2]

theorem mem_wrap {c : UInt8} {room : Nat} {cs : Bytes} (h : c ∈ wrap room cs) : c = 10 ∨ c ∈ cs := by
  fun_induction wrap room cs with
  | case1 => cases h
  | case2 d rest ih =>
    rcases List.mem_cons.1 h with rfl | h
    · exact .inl rfl
    · rcases List.mem_cons.1 h with rfl | h
      · exact .inr List.mem_cons_self
      · exact (ih h).imp_right (List.mem_cons_of_mem _)
  | case3 room d rest ih =>
    rcases List.mem_cons.1 h with rfl | h
    · exact .inr List.mem_cons_self
    · exact (ih h).imp_right (List.mem_cons_of_mem _)

/-- No line of a body is empty: a line end is put where a character follows, and no character is a line end. -/
theorem no_empty_line {cs : Bytes} (hcs : 10 ∉ cs) (room : Nat) : ¬ [10, 10] <:+: wrap room cs ++ [10] := by
  have skip : ∀ {c : UInt8} {l : Bytes}, c ≠ 10 → [10, 10] <:+: c :: l → [10, 10] <:+: l := fun hc h =>
    (List.infix_cons_iff.1 h).resolve_left fun hpre => hc (List.cons_prefix_cons.1 hpre).1.symm
  fun_induction wrap room cs with
  | case1 => decide
  | case2 c rest ih =>
    rw [List.mem_cons, not_or] at hcs
    intro h
    rcases List.infix_cons_iff.1 h with hpre | h
    · exact hcs.1 (List.cons_prefix_cons.1 (List.cons_prefix_cons.1 hpre).2).1
    · exact ih hcs.2 (skip (Ne.symm hcs.1) h)
  | case3 room c rest ih =>
    rw [List.mem_cons, not_or] at hcs
    exact fun h => ih hcs.2 (skip (Ne.symm hcs.1) h)

/-! ## The base64 of a body -/

/-- An octet that neither a mark, nor a line end, nor white space is made of. -/
structure IsPlain (c : UInt8) : Prop where
  ascii : c < 0x80
  noDash : c ≠ 45
  noSpace : Text.isSpace (Char.ofNat c.toNat) = false

namespace IsPlain

variable {c : UInt8}

theorem character : ∀ v < 64, Base64.Alphabet.standard.character v < 0x80 ∧
    Base64.Alphabet.standard.character v ≠ 45 ∧
    Text.isSpace (Char.ofNat (Base64.Alphabet.standard.character v).toNat) = false := by decide

theorem of_mem_encode {bs : Bytes} (hc : c ∈ Base64.encode bs) : IsPlain c := by
  rcases Base64.mem_encode hc with rfl | ⟨v, hv, rfl⟩
  · exact ⟨by decide, by decide, by decide⟩
  · obtain ⟨hascii, hdash, hspace⟩ := character v hv
    exact ⟨hascii, hdash, hspace⟩

theorem ne_of_isSpace (h : IsPlain c) {b : UInt8} (hb : Text.isSpace (Char.ofNat b.toNat) = true) : b ≠ c := by
  rintro rfl
  rw [h.noSpace] at hb
  cases hb

theorem not_isBlank (h : IsPlain c) : isBlank c = false := by
  cases hblank : isBlank c with
  | false => rfl
  | true =>
    have hspace : Text.isSpace (Char.ofNat c.toNat) = true := by
      simp only [isBlank, Bool.or_eq_true, beq_iff_eq] at hblank
      rcases hblank with ((rfl | rfl) | rfl) | rfl <;> decide
    rw [h.noSpace] at hspace
    cases hspace

end IsPlain

theorem withoutSpace_ascii {data : Bytes} (h : ∀ b ∈ data, b < 0x80) :
    withoutSpace data = some (data.filter fun b => !Text.isSpace (Char.ofNat b.toNat)) := by
  unfold withoutSpace Text.Utf8.decode
  rw [Text.Utf8.read_ascii h]
  simp only [Option.map_some, Option.bind_some, String.toList_ofList, List.filter_map, Function.comp_def]
  exact Base64.asciiOf_characters fun b hb => h b (List.mem_filter.1 hb).1

theorem length_le_of_withoutSpace {data cs : Bytes} (h : withoutSpace data = some cs) : cs.length ≤ data.length := by
  obtain ⟨s, hs, h⟩ := Option.bind_eq_some_iff.1 h
  obtain ⟨read, hread, rfl⟩ := Option.map_eq_some_iff.1 hs
  unfold Base64.asciiOf at h
  split at h
  · cases h
    have := Text.Utf8.length_le_of_read hread
    have := List.length_filter_le (fun c => !Text.isSpace c) read
    simp
    omega
  · cases h

theorem readCanonical_encode (content : Bytes) : readCanonical (Base64.encode content) = some content := by
  unfold readCanonical
  rw [Base64.decodeStrict_encode, Option.bind_some, if_pos rfl]

theorem length_le_of_readCanonical {cs content : Bytes} (h : readCanonical cs = some content) :
    content.length ≤ cs.length := by
  obtain ⟨bs, -, h⟩ := Option.bind_eq_some_iff.1 h
  split at h
  · next hcanonical =>
    cases h
    exact hcanonical ▸ Base64.length_le_encode content
  · cases h

/-! ## A rendered document is found again -/

/-- A body of which nothing but some content is read. -/
structure IsBodyOf (content body : Bytes) : Prop where
  noDash : 45 ∉ body
  noReturn : 13 ∉ body
  noEmptyLine : ¬ [10, 10] <:+: body
  base64 : withoutSpace body = some (Base64.encode content)

theorem isBodyOf_lines (content : Bytes) : IsBodyOf content (wrap lineLength (Base64.encode content) ++ [10]) := by
  have hmem : ∀ c ∈ wrap lineLength (Base64.encode content) ++ [10], c = 10 ∨ IsPlain c := by
    intro c hc
    rcases List.mem_append.1 hc with hc | hc
    · exact (mem_wrap hc).imp_right IsPlain.of_mem_encode
    · exact .inl (List.mem_singleton.1 hc)
  constructor
  · intro h
    rcases hmem _ h with h | h
    · cases h
    · exact h.noDash rfl
  · intro h
    rcases hmem _ h with h | h
    · cases h
    · exact h.ne_of_isSpace (b := 13) (by decide) rfl
  · exact no_empty_line (fun h => (IsPlain.of_mem_encode h).ne_of_isSpace (b := 10) (by decide) rfl) _
  · rw [withoutSpace_ascii, List.filter_append, filter_wrap]
    · simp
      decide
    · intro c hc
      rw [(IsPlain.of_mem_encode hc).noSpace]
      rfl
    · decide
    · intro c hc
      rcases hmem c hc with rfl | hc
      · decide
      · exact hc.ascii

theorem IsBodyOf.splitHeaders {content body : Bytes} (h : IsBodyOf content body) : splitHeaders body = ([], body) := by
  have hreturn : ¬ [13, 10, 13, 10] <:+: body := fun hends => h.noReturn (hends.subset (by decide))
  unfold Pem.splitHeaders
  rw [cutAt_eq_none h.noEmptyLine, cutAt_eq_none hreturn]
  rfl

/-- The octets of a label that a mark can bear. -/
structure IsLabel (label : Bytes) : Prop where
  nonempty : label ≠ []
  noDash : 45 ∉ label
  text : (Text.Utf8.decode label).isSome = true

theorem IsBodyOf.block {content body label : Bytes} (h : IsBodyOf content body) (hlabel : IsLabel label) :
    block label label body = some ⟨label, content⟩ := by
  have hheaders : areHeaders [] = true := by decide
  unfold Pem.block
  rw [h.splitHeaders]
  simp [h.base64, readCanonical_encode, hlabel.nonempty, hlabel.text, hheaders]

/-- What follows the mark that opens a rendered document, once its blanks are passed over. -/
theorem exists_body (content after : Bytes) : ∃ body, IsBodyOf content body ∧
    (10 :: wrap lineLength (Base64.encode content) ++ 10 :: closeMark ++ after).dropWhile isBlank =
      body ++ (closeMark ++ after) := by
  have hblank : isBlank 10 = true := by decide
  cases hcs : Base64.encode content with
  | nil =>
    -- both line ends are passed over, and nothing is left of the body
    have hmark : (closeMark ++ after).dropWhile isBlank = closeMark ++ after := rfl
    have hbase64 : withoutSpace [] = some (Base64.encode content) := by rw [hcs]; rfl
    refine ⟨[], ⟨by decide, by decide, by decide, hbase64⟩, ?_⟩
    simp [wrap, hblank, hmark]
  | cons c cs =>
    have hc : isBlank c = false := (IsPlain.of_mem_encode (hcs ▸ List.mem_cons_self)).not_isBlank
    refine ⟨_, isBodyOf_lines content, ?_⟩
    simp [hcs, lineLength, wrap, hblank, hc]

theorem blocksFrom_of_absent {bs : Bytes} (h : ¬ openMark <:+: bs) (fuel : Nat) : blocksFrom fuel bs = some [] := by
  cases fuel with
  | zero => rfl
  | succ fuel => rw [blocksFrom, cutAt_eq_none h]

theorem render_eq (label : String) (content : Bytes) : render label content =
    openMark ++ Bytes.ofText label ++ dashes ++ (10 :: wrap lineLength (Base64.encode content) ++ 10 :: closeMark ++
      (Bytes.ofText label ++ (dashes ++ [10]))) := by
  simp [render]

/-- A rendered document holds one block: what was rendered, under its label. -/
theorem blocks_render {label : String} (hlabel : IsLabel (Bytes.ofText label)) (content : Bytes) :
    blocks (render label content) = some [⟨Bytes.ofText label, content⟩] := by
  obtain ⟨body, hbody, hdrop⟩ := exists_body content (Bytes.ofText label ++ (dashes ++ [10]))
  obtain ⟨fuel, hfuel⟩ : ∃ fuel, (render label content).length = fuel + 1 :=
    Nat.exists_eq_add_one_of_ne_zero (by simp [render_eq, openMark])
  unfold blocks
  rw [hfuel, blocksFrom, render_eq, List.append_assoc, List.append_assoc,
    ← List.nil_append (openMark ++ _), cutAt_append (m := 45) rfl (by decide)]
  dsimp only
  rw [cutAt_append (m := 45) rfl hlabel.noDash]
  dsimp only
  rw [hdrop, cutAt_append (m := 45) rfl hbody.noDash]
  dsimp only
  rw [cutAt_append (m := 45) rfl hlabel.noDash]
  simp [hbody.block hlabel, blocksFrom_of_absent (by decide : ¬ openMark <:+: [10])]

theorem find?_render {label : String} {labels : List String} (hlabel : IsLabel (Bytes.ofText label))
    (hmem : label ∈ labels) (content : Bytes) : find? labels (render label content) = some content := by
  have hcontains : (labels.map Bytes.ofText).contains (Bytes.ofText label) = true :=
    List.contains_iff_mem.2 (List.mem_map_of_mem hmem)
  rw [find?, blocks_render hlabel]
  simp only [Option.bind_eq_bind, Option.bind_some, List.find?_cons, hcontains]

/-! ## A block is shorter than what it is found in -/

theorem length_of_cutAt {marker bs before after : Bytes} (h : cutAt marker bs = some (before, after)) :
    bs.length = before.length + marker.length + after.length := by
  rw [cutAt_sound h, List.length_append, List.length_append]

theorem length_splitHeaders (body : Bytes) : (splitHeaders body).2.length ≤ body.length := by
  unfold splitHeaders
  split
  · next parts hcut =>
    have := length_of_cutAt hcut
    omega
  · cases hcut : cutAt [13, 10, 13, 10] body with
    | none => exact Nat.le_refl _
    | some parts =>
      have := length_of_cutAt hcut
      simp only [Option.getD_some]
      omega

theorem length_le_of_block {label closing body : Bytes} {b : Block} (h : block label closing body = some b) :
    b.content.length ≤ body.length := by
  simp only [block, Option.bind_eq_bind, Option.bind_eq_some_iff] at h
  obtain ⟨cs, hcs, content, hcontent, h⟩ := h
  split at h
  · cases h
    calc content.length ≤ cs.length := length_le_of_readCanonical hcontent
      _ ≤ (splitHeaders body).2.length := length_le_of_withoutSpace hcs
      _ ≤ body.length := length_splitHeaders body
  · cases h

/-- The first of some blocks, and what is left to read behind it; the mark in front of it belongs to neither. -/
theorem blocksFrom_succ {fuel : Nat} {bs : Bytes} {found : List Block} (h : blocksFrom (fuel + 1) bs = some found) :
    found = [] ∨ ∃ label closing body rest b more, block label closing body = some b ∧
      blocksFrom fuel rest = some more ∧ found = b :: more ∧ body.length + rest.length < bs.length := by
  rw [blocksFrom] at h
  split at h
  · exact .inl (Option.some.inj h).symm
  next hopen =>
  split at h
  · exact .inl (Option.some.inj h).symm
  next hlabel =>
  split at h
  · exact .inl (Option.some.inj h).symm
  next afterLabel _ body _ hbody =>
  split at h
  · exact .inl (Option.some.inj h).symm
  next rest hclosing =>
  simp only [Option.bind_eq_bind, Option.bind_eq_some_iff, Option.map_eq_some_iff] at h
  obtain ⟨b, hb, more, hmore, rfl⟩ := h
  refine .inr ⟨_, _, body, rest, b, more, hb, hmore, rfl, ?_⟩
  have hopen := length_of_cutAt hopen
  have hlabel := length_of_cutAt hlabel
  have hbody := length_of_cutAt hbody
  have hclosing := length_of_cutAt hclosing
  have hblanks := (List.dropWhile_sublist isBlank (l := afterLabel)).length_le
  have hmark : openMark.length = 11 := by decide
  omega

theorem length_lt_of_mem_blocksFrom {fuel : Nat} {bs : Bytes} {found : List Block}
    (h : blocksFrom fuel bs = some found) : ∀ b ∈ found, b.content.length < bs.length := by
  induction fuel generalizing bs found with
  | zero =>
    cases h
    simp
  | succ fuel ih =>
    obtain rfl | ⟨label, closing, body, rest, b, more, hb, hmore, rfl, hlength⟩ := blocksFrom_succ h
    · simp
    · rw [List.forall_mem_cons]
      constructor
      · have := length_le_of_block hb
        omega
      · intro c hc
        have := ih hmore c hc
        omega

/-- Whatever is found in a byte string is shorter than it. -/
theorem length_lt_of_find? {labels : List String} {bs content : Bytes} (h : find? labels bs = some content) :
    content.length < bs.length := by
  simp only [find?, Option.bind_eq_bind, Option.bind_eq_some_iff, Option.some.injEq] at h
  obtain ⟨found, hfound, b, hb, rfl⟩ := h
  exact length_lt_of_mem_blocksFrom hfound b (List.mem_of_find?_eq_some hb)

end Pem
end AttestationTrust
