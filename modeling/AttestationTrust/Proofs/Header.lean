import AttestationTrust.Proofs.Documents
import AttestationTrust.Proofs.Quads
import AttestationTrust.Provider
/-!
# The header of a BLOB, read twice

Verification reads the header from the first of the three segments, in any encoding that a JSON document may come in.
The revocation check reads it from what stands before the first point once the blanks around the BLOB are dropped, and
in UTF-8 alone.  Blanks in front and padding make no difference to the octets that a segment carries, so where both find
a chain they find the same one (`Blob.signingChain_of_split?`), and it leads to the root (`Blob.leadsTo_of_accept`).
-/
namespace AttestationTrust

namespace Bytes

theorem dropWhile_append_cons {α : Type} {p : α → Bool} {x : α} (hx : p x = false) (l r : List α) :
    (l ++ x :: r).dropWhile p = l.dropWhile p ++ x :: r := by
  induction l with
  | nil => simp [hx]
  | cons a l ih =>
    by_cases ha : p a = true
    · simp [ha, ih]
    · simp [ha]

theorem exists_trim_append_cons {x : UInt8} (hx : isSpace x = false) (l r : Bytes) :
    ∃ r', trim (l ++ x :: r) = l.dropWhile isSpace ++ x :: r' := by
  refine ⟨(r.reverse.dropWhile isSpace).reverse, ?_⟩
  unfold trim
  rw [dropWhile_append_cons hx, List.reverse_append, List.reverse_cons, List.append_assoc, List.singleton_append,
    dropWhile_append_cons hx]
  simp

theorem splitLast_eq_some {sep : UInt8} : ∀ {bs before after : Bytes}, splitLast sep bs = some (before, after) →
    bs = before ++ sep :: after
  | [], _, _, h => by cases h
  | b :: bs, before, after, h => by
    unfold splitLast at h
    split at h
    · rename_i heq
      cases h
      rw [splitLast_eq_some heq]
      rfl
    · split at h
      · rename_i hb
        cases h
        rw [hb]
        rfl
      · cases h

theorem splitOn_eq_cons {sep : UInt8} : ∀ {bs seg : Bytes} {segs : List Bytes}, splitOn sep bs = seg :: segs →
    sep ∉ seg ∧ (segs ≠ [] → ∃ rest, bs = seg ++ sep :: rest)
  | [], seg, segs, h => by
    cases h
    simp
  | b :: bs, seg, segs, h => by
    unfold splitOn at h
    split at h
    · rename_i hb
      cases h
      exact ⟨by simp, fun _ => ⟨bs, by rw [hb]; rfl⟩⟩
    · rename_i hb
      split at h
      · cases h
        exact ⟨by simp [Ne.symm hb], by simp⟩
      · rename_i heq
        cases h
        obtain ⟨hmem, hrest⟩ := splitOn_eq_cons heq
        refine ⟨by simp [Ne.symm hb, hmem], fun hsegs => ?_⟩
        obtain ⟨rest, rfl⟩ := hrest hsegs
        exact ⟨rest, rfl⟩

end Bytes

namespace Base64

/-- Only padding settles the values of the quad being read. -/
theorem readLenient_replicate_pad : ∀ (k : Nat) {vs : List Nat} {pads : Nat} {bs : Bytes},
    readLenient vs pads (List.replicate k pad) = some bs → bs = settled vs
  | 0, vs, pads, bs, h => by
    rw [List.replicate_zero, readLenient] at h
    split at h
    · rename_i hvs
      cases h
      rw [hvs]
      rfl
    · cases h
  | k + 1, vs, pads, bs, h => by
    rw [List.replicate_succ, readLenient, if_pos rfl] at h
    split at h
    · split at h
      · cases h
        rfl
      · exact readLenient_replicate_pad k h
    · exact readLenient_replicate_pad k h

/-- However much padding stands behind characters, they carry the same octets if it is enough. -/
theorem readLenient_append_pads (k l : Nat) : ∀ (cs : Bytes) {vs : List Nat} {pads : Nat} {bs bs' : Bytes},
    readLenient vs pads (cs ++ List.replicate k pad) = some bs →
    readLenient vs pads (cs ++ List.replicate l pad) = some bs' → bs = bs'
  | [], vs, pads, bs, bs', h, h' =>
    (readLenient_replicate_pad k h).trans (readLenient_replicate_pad l h').symm
  | c :: cs, vs, pads, bs, bs', h, h' => by
    -- up to the padding both readings are in the same state, and take the same branch
    rw [List.cons_append, readLenient] at h h'
    by_cases hc : c = pad
    · rw [if_pos hc] at h h'
      by_cases hlen : 2 ≤ vs.length
      · rw [if_pos hlen] at h h'
        by_cases hfull : 4 ≤ vs.length + (pads + 1)
        · rw [if_pos hfull] at h h'
          exact Option.some.inj (h.symm.trans h')
        · rw [if_neg hfull] at h h'
          exact readLenient_append_pads k l cs h h'
      · rw [if_neg hlen] at h h'
        exact readLenient_append_pads k l cs h h'
    · rw [if_neg hc] at h h'
      cases hv : valueOf c with
      | none =>
        rw [hv] at h h'
        exact readLenient_append_pads k l cs h h'
      | some v =>
        rw [hv] at h h'
        dsimp only at h h'
        split at h
        · obtain ⟨rest, hrest, rfl⟩ := Option.map_eq_some_iff.1 h
          obtain ⟨rest', hrest', rfl⟩ := Option.map_eq_some_iff.1 h'
          rw [readLenient_append_pads k l cs hrest hrest']
        · rename_i hvs
          split at h'
          · exact absurd rfl (hvs _ _ _)
          · exact readLenient_append_pads k l cs h h'

theorem toNat_le_of_isSpace {c : UInt8} (h : Bytes.isSpace c = true) : c.toNat ≤ 32 := by
  simp only [Bytes.isSpace, Bool.or_eq_true, beq_iff_eq, Bool.and_eq_true, decide_eq_true_eq,
    UInt8.le_iff_toNat_le] at h
  obtain rfl | ⟨-, h⟩ := h
  · decide
  · exact Nat.le_trans h (by decide)

theorem readLenient_cons_of_isSpace {vs : List Nat} {pads : Nat} {c : UInt8} {rest : Bytes}
    (h : Bytes.isSpace c = true) : readLenient vs pads (standardise c :: rest) = readLenient vs pads rest := by
  have hc := toNat_le_of_isSpace h
  have hne : ∀ d : UInt8, 32 < d.toNat → c ≠ d := by
    rintro d hd rfl
    omega
  have hlt : ∀ d e : UInt8, 32 < d.toNat → ¬(d ≤ c ∧ c ≤ e) := by
    rintro d e hd ⟨hle, -⟩
    rw [UInt8.le_iff_toNat_le] at hle
    omega
  have hvalue : valueOf c = none := by
    unfold valueOf
    rw [if_neg (hlt _ _ (by decide)), if_neg (hlt _ _ (by decide)), if_neg (hlt _ _ (by decide)),
      if_neg (hne _ (by decide)), if_neg (hne _ (by decide))]
  have hstandard : standardise c = c := by
    unfold standardise
    rw [if_neg (hne _ (by decide)), if_neg (hne _ (by decide))]
  rw [hstandard, readLenient_cons_of_foreign (hne _ (by decide)) hvalue]

theorem readLenient_dropWhile_isSpace {vs : List Nat} {pads : Nat} (tail : Bytes) : ∀ cs : Bytes,
    readLenient vs pads ((cs.dropWhile Bytes.isSpace).map standardise ++ tail) =
      readLenient vs pads (cs.map standardise ++ tail)
  | [] => rfl
  | c :: cs => by
    by_cases hc : Bytes.isSpace c = true
    · rw [List.dropWhile_cons_of_pos hc, readLenient_dropWhile_isSpace tail cs, List.map_cons, List.cons_append,
        readLenient_cons_of_isSpace hc]
    · rw [List.dropWhile_cons_of_neg hc]

theorem decodeSegment_eq (cs : Bytes) : ∃ k, decodeSegment cs =
    readLenient [] 0 (cs.map standardise ++ List.replicate k pad) := by
  refine ⟨(4 - cs.length % 4) % 4, ?_⟩
  unfold decodeSegment decodeUrl decode padding
  rw [List.map_append, List.map_replicate]
  rfl

/-- The blanks before a segment make no difference to the octets it carries. -/
theorem decodeSegment_dropWhile_isSpace {cs bs bs' : Bytes} (h : decodeSegment cs = some bs)
    (h' : decodeSegment (cs.dropWhile Bytes.isSpace) = some bs') : bs' = bs := by
  obtain ⟨k, hk⟩ := decodeSegment_eq cs
  obtain ⟨l, hl⟩ := decodeSegment_eq (cs.dropWhile Bytes.isSpace)
  rw [hk] at h
  rw [hl, readLenient_dropWhile_isSpace] at h'
  exact readLenient_append_pads l k _ h' h

end Base64

namespace Blob

open X509 (Certificate)

/-- The first segment of a BLOB without the blanks in front of it. -/
theorem headerSegment_of_split {blob message signature header payload : Bytes}
    (hlast : Bytes.splitLast 46 blob = some (message, signature))
    (hsegments : Bytes.splitOn 46 message = [header, payload]) :
    Revocation.headerSegment blob = header.dropWhile Bytes.isSpace := by
  obtain ⟨hpoint, hrest⟩ := Bytes.splitOn_eq_cons hsegments
  obtain ⟨rest, rfl⟩ := hrest (by simp)
  rw [Bytes.splitLast_eq_some hlast, List.append_assoc, List.cons_append]
  have hspace : Bytes.isSpace 46 = false := by decide
  obtain ⟨rest', htrim⟩ := Bytes.exists_trim_append_cons hspace header (rest ++ 46 :: signature)
  have hsegment : ∀ b ∈ header.dropWhile Bytes.isSpace, (b != 46) = true := by
    intro b hb
    have hmem : b ∈ header := (List.dropWhile_sublist _).subset hb
    rw [bne_iff_ne]
    rintro rfl
    exact hpoint hmem
  rw [Revocation.headerSegment, htrim, List.takeWhile_append_of_pos hsegment]
  simp

theorem itemCertificate_eq_ok_iff {item : Value} {position : Nat} {c : Certificate} :
    Revocation.itemCertificate position item = .ok c ↔
      ((item.text?.bind Base64.ofText?).bind fun der => (Certificate.ofDer der).toOption) = some c := by
  unfold Revocation.itemCertificate
  cases item.text?.bind Base64.ofText? with
  | none => simp
  | some der =>
    cases hload : Certificate.ofDer der with
    | ok d => simp [hload, Except.toOption]
    | error f => cases f <;> simp [hload, Except.toOption]

/-- Both readings of the items take all of them or none. -/
theorem itemCertificates_eq_ok_iff : ∀ {items : List Value} {position : Nat} {chain : List Certificate},
    Revocation.itemCertificates position items = .ok chain ↔
      items.mapM (fun item => do
        let der ← item.text?.bind Base64.ofText?
        (Certificate.ofDer der).toOption) = some chain
  | [], _, _ => by simp [Revocation.itemCertificates]
  | item :: items, position, chain => by
    rw [Revocation.itemCertificates, except_bind_eq_ok_iff, List.mapM_cons, Option.bind_eq_bind,
      Option.bind_eq_some_iff]
    refine exists_congr fun c => and_congr itemCertificate_eq_ok_iff ?_
    rw [except_bind_eq_ok_iff, Option.bind_eq_bind, Option.bind_eq_some_iff]
    exact exists_congr fun rest => and_congr itemCertificates_eq_ok_iff (by simp)

variable [Json.Limits]

theorem document?_eq_some {segment : Bytes} {v : Value} (h : document? segment = some v) :
    ∃ bs, Base64.decodeSegment segment = some bs ∧ Json.ofBytes bs = .ok v := by
  obtain ⟨bs, hbs, h⟩ := Option.bind_eq_some_iff.1 h
  cases hjson : Json.ofBytes bs with
  | error f =>
    rw [hjson] at h
    cases h
  | ok w =>
    rw [hjson] at h
    cases h
    exact ⟨bs, hbs, hjson⟩

theorem header_cases (blob : Bytes) : Revocation.header blob = .error (.revocation .headerNotJson) ∨
    ∃ bs, Base64.decodeSegment (Revocation.headerSegment blob) = some bs ∧ Json.ofUtf8 bs ≠ .error .invalid ∧
      Revocation.header blob = (Json.ofUtf8 bs).mapError fun _ => .tooDeep := by
  unfold Revocation.header
  cases hsegment : Base64.decodeSegment (Revocation.headerSegment blob) with
  | none => exact .inl rfl
  | some bs =>
    rw [Option.map_some]
    cases hjson : Json.ofUtf8 bs with
    | ok v => exact .inr ⟨bs, rfl, by simp [hjson], by rw [hjson]; rfl⟩
    | error f =>
      cases f with
      | invalid => exact .inl rfl
      | tooDeep => exact .inr ⟨bs, rfl, by simp [hjson], by rw [hjson]; rfl⟩

/-- Of a BLOB that verification takes apart, the revocation check reads the same header or none. -/
theorem header_of_split? {blob : Bytes} {s : Signed} (hsplit : split? blob = some s) :
    Revocation.header blob = .ok (.map s.header) ∨
      Revocation.header blob = .error (.revocation .headerNotJson) := by
  obtain ⟨⟨message, signature⟩, hlast, hsplit⟩ := Option.bind_eq_some_iff.1 hsplit
  dsimp only at hsplit
  split at hsplit
  · rename_i header payload hsegments
    obtain ⟨v, hv, hsplit⟩ := Option.bind_eq_some_iff.1 hsplit
    obtain ⟨_, -, hsplit⟩ := Option.bind_eq_some_iff.1 hsplit
    obtain ⟨bs', hbs', hjson'⟩ := document?_eq_some hv
    obtain h | ⟨bs, hbs, hvalid, hheader⟩ := header_cases blob
    · exact .inr h
    · rw [headerSegment_of_split hlast hsegments] at hbs
      obtain rfl := Base64.decodeSegment_dropWhile_isSpace hbs' hbs
      rw [Json.ofBytes_eq_ofUtf8 hvalid] at hjson'
      rw [hheader, hjson']
      split at hsplit
      · obtain ⟨_, -, hsplit⟩ := Option.bind_eq_some_iff.1 hsplit
        cases hsplit
        exact .inl rfl
      · cases hsplit
  · cases hsplit

omit [Json.Limits] in
theorem items_of_chainItems {header : Value.Fields} {items : List Value}
    (h : Revocation.chainItems (.map header) = some items) :
    Metadata.Shape.items ((Value.field? "x5c" header).getD (.list [])) = some items := by
  unfold Revocation.chainItems at h
  dsimp only at h
  split at h
  · rename_i heq
    rw [heq]
    exact h
  · cases h

/-- The revocation check finds in a BLOB the chain that verification finds, or none at all. -/
theorem signingChain_of_split? {blob : Bytes} {s : Signed} (hsplit : split? blob = some s) :
    (∃ f, Revocation.signingChain blob = .error (.revocation f) ∧ (f = .headerNotJson ∨ f = .noChain)) ∨
      ∀ chain, Revocation.signingChain blob = .ok chain ↔ chain? s.header = some chain := by
  unfold Revocation.signingChain
  obtain h | h := header_of_split? hsplit
  · rw [h]
    cases hitems : Revocation.chainItems (.map s.header) with
    | none => exact .inl ⟨.noChain, by simp [bind, Except.bind, hitems], .inr rfl⟩
    | some items =>
      refine .inr fun chain => ?_
      rw [chain?, items_of_chainItems hitems, ← Option.bind_eq_bind]
      simp only [bind, Except.bind, hitems, Option.bind_some]
      exact itemCertificates_eq_ok_iff
  · exact .inl ⟨.headerNotJson, by rw [h]; rfl, .inl rfl⟩

/-- Verification of a BLOB goes through a chain of certificates: it stands in the header and leads to the root, and the
key of its first certificate has signed the BLOB. -/
structure Verified (root : Certificate) (blob : Bytes) (chain : List Certificate) : Prop where
  signed : ∃ s, split? blob = some s ∧ chain? s.header = some chain ∧ isSignedBy s (chain.headD root) = true
  leads : leadsTo root chain = true

theorem exists_verified_of_accept {root : Certificate} {blob : Bytes} (h : accept root blob ≠ none) :
    ∃ chain, Verified root blob chain := by
  obtain ⟨payload, h⟩ := Option.ne_none_iff_exists'.1 h
  obtain ⟨s, hsplit, h⟩ := Option.bind_eq_some_iff.1 h
  obtain ⟨chain, hchain, h⟩ := Option.bind_eq_some_iff.1 h
  split at h
  · rename_i hc
    exact ⟨chain, ⟨s, hsplit, hchain, hc.2⟩, hc.1⟩
  · cases h

/-- The revocation check goes through the chain that verification has gone through, or through none. -/
theorem Verified.signingChain_cases {root : Certificate} {blob : Bytes} {chain : List Certificate}
    (h : Verified root blob chain) : Revocation.signingChain blob = .ok chain ∨
      ∃ f, Revocation.signingChain blob = .error (.revocation f) ∧ (f = .headerNotJson ∨ f = .noChain) := by
  obtain ⟨s, hsplit, hchain, -⟩ := h.signed
  obtain herror | hok := signingChain_of_split? hsplit
  · exact .inr herror
  · exact .inl ((hok chain).2 hchain)

/-- The certificates that the revocation check goes through lead to the root that has accepted the BLOB. -/
theorem leadsTo_of_accept {root : Certificate} {blob : Bytes} {chain : List Certificate}
    (haccept : accept root blob ≠ none) (hchain : Revocation.signingChain blob = .ok chain) :
    leadsTo root chain = true := by
  obtain ⟨verified, h⟩ := exists_verified_of_accept haccept
  obtain hok | ⟨f, herror, -⟩ := h.signingChain_cases
  · cases hok.symm.trans hchain
    exact h.leads
  · cases herror.symm.trans hchain

end Blob
end AttestationTrust
