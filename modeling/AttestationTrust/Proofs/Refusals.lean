import Mathlib.Data.List.Basic
import AttestationTrust.Proofs.Escapes
import AttestationTrust.Proofs.Renderings
/-!
# Which certificates in a request are refused

A text without `-` and `_` is read strictly: it is accepted when it consists of characters of the alphabet, as many as
octets can be read from, and of padding behind them (`Base64.exists_decodeStrict_padded_iff`).  A text with one of the
two is read leniently: everything foreign in it is passed over, and what is accepted is what the rest of it carries
(`Base64.readLenient_filter`).  Whatever is refused is refused in the same words, and a request that brings it is
answered at once (`Http.refused_unless_marked`).
-/
namespace AttestationTrust

namespace Base64

variable {vs : List Nat} {pads k : Nat} {started : Bool} {body cs bs : Bytes} {c : UInt8}

/-! ## What the strict reader accepts -/

theorem valueOf_pad : valueOf pad = none := by decide

theorem ne_pad_of_valueOf (h : valueOf c ≠ none) : c ≠ pad := by
  rintro rfl
  exact h valueOf_pad

/-- What is accepted consists of characters of the alphabet and of padding behind them. -/
theorem shape_of_readStrict (h : readStrict vs pads started cs = some bs) : ∃ body k,
    cs = body ++ List.replicate k pad ∧ (∀ c ∈ body, valueOf c ≠ none) ∧ (started = true → body = []) := by
  fun_induction readStrict vs pads started cs generalizing bs with
  | case1 => exact ⟨[], 0, rfl, by simp, fun _ => rfl⟩
  | case2 | case4 | case7 | case8 => cases h
  | case3 => exact ⟨[], 1, rfl, by simp, fun _ => rfl⟩
  | case5 vs pads started rest htwo hfull ih =>
    obtain ⟨body, k, rfl, -, hnil⟩ := ih h
    obtain rfl := hnil rfl
    exact ⟨[], k + 1, rfl, by simp, fun _ => rfl⟩
  | case6 vs pads started rest htwo ih =>
    obtain ⟨body, k, rfl, -, hnil⟩ := ih h
    obtain rfl := hnil rfl
    exact ⟨[], k + 1, rfl, by simp, fun _ => rfl⟩
  | case9 pads started c rest hc v hv hstarted x y z ih =>
    obtain ⟨read, hread, -⟩ := Option.map_eq_some_iff.1 h
    obtain ⟨body, k, rfl, hbody, -⟩ := ih hread
    exact ⟨c :: body, k, rfl, List.forall_mem_cons.2 ⟨by simp [hv], hbody⟩, fun h => absurd h hstarted⟩
  | case10 vs pads started c rest hc v hv hstarted hvs ih =>
    obtain ⟨body, k, rfl, hbody, -⟩ := ih h
    exact ⟨c :: body, k, rfl, List.forall_mem_cons.2 ⟨by simp [hv], hbody⟩, fun h => absurd h hstarted⟩

/-- Fewer than two values are not settled by padding. -/
theorem isSome_readStrict_replicate_of_lt (hvs : vs.length < 2) :
    (readStrict vs pads started (List.replicate k pad)).isSome = true ↔ vs = [] := by
  induction k generalizing started with
  | zero =>
    rw [List.replicate_zero, readStrict]
    split <;> simp_all
  | succ k ih =>
    rw [List.replicate_succ, readStrict, if_pos rfl, if_neg (Nat.not_le.2 hvs)]
    exact ih

/-- Two or three values are settled by the padding that makes them four. -/
theorem isSome_readStrict_replicate (hvs : 2 ≤ vs.length) (hpads : vs.length + pads < 4) :
    (readStrict vs pads started (List.replicate k pad)).isSome = true ↔ vs.length + pads + k = 4 := by
  induction k generalizing pads started with
  | zero =>
    have hne : vs ≠ [] := by
      rintro rfl
      simp at hvs
    rw [List.replicate_zero, readStrict, if_neg hne]
    simp only [Option.isSome_none, Bool.false_eq_true, false_iff]
    omega
  | succ k ih =>
    rw [List.replicate_succ, readStrict, if_pos rfl, if_pos hvs]
    split
    · next hfull =>
      cases k with
      | zero => simp; omega
      | succ k => simp [List.replicate_succ]; omega
    · next hfull =>
      rw [ih (by omega)]
      omega

/-- Characters of the alphabet are read quad by quad; what follows them is read with what is left of the last quad. -/
theorem exists_readStrict_append (hvs : vs.length < 4) (hbody : ∀ c ∈ body, valueOf c ≠ none) (tail : Bytes) :
    ∃ us : List Nat, us.length = (vs.length + body.length) % 4 ∧
      (readStrict vs 0 false (body ++ tail)).isSome = (readStrict us 0 false tail).isSome := by
  induction body generalizing vs with
  | nil => exact ⟨vs, (Nat.mod_eq_of_lt hvs).symm, rfl⟩
  | cons c body ih =>
    obtain ⟨hc, hbody⟩ := List.forall_mem_cons.1 hbody
    obtain ⟨v, hv⟩ := Option.ne_none_iff_exists'.1 hc
    rw [List.cons_append, readStrict, if_neg (ne_pad_of_valueOf hc), hv]
    dsimp only
    rw [if_neg Bool.false_ne_true]
    split
    · next x y z =>
      obtain ⟨us, hus, heq⟩ := ih (by decide : ([] : List Nat).length < 4) hbody
      refine ⟨us, ?_, by rw [Option.isSome_map, heq]⟩
      rw [hus]
      simp only [List.length_cons, List.length_nil]
      omega
    · next hnot =>
      have hlt : vs.length < 3 := by
        refine Nat.lt_of_le_of_ne (Nat.le_of_lt_succ hvs) fun hthree => ?_
        obtain ⟨x, y, z, rfl⟩ := List.length_eq_three.1 hthree
        exact absurd rfl (hnot x y z)
      have hmore : (vs ++ [v]).length < 4 := by simpa using Nat.succ_lt_succ hlt
      obtain ⟨us, hus, heq⟩ := ih hmore hbody
      refine ⟨us, ?_, heq⟩
      rw [hus, List.length_append, List.length_cons]
      simp only [List.length_cons, List.length_nil]
      omega

/-- Of so many characters octets can be read, with so much padding behind them. -/
def IsWhole (length pads : Nat) : Prop := length ≠ 0 ∧ (length % 4 = 0 ∨ 2 ≤ length % 4 ∧ length % 4 + pads ≤ 4)

instance (length pads : Nat) : Decidable (IsWhole length pads) := inferInstanceAs (Decidable (_ ∧ _))

theorem isSome_decodeStrict_padded_iff (hbody : ∀ c ∈ body, valueOf c ≠ none) (hne : body ++ List.replicate k pad ≠ []) :
    (decodeStrict (body ++ List.replicate k pad ++ padding (body ++ List.replicate k pad))).isSome = true ↔
      IsWhole body.length k := by
  obtain ⟨p, hp, hpadded⟩ : ∃ p, p = (4 - (body.length + k) % 4) % 4 ∧
      body ++ List.replicate k pad ++ padding (body ++ List.replicate k pad) = body ++ List.replicate (k + p) pad := by
    refine ⟨_, rfl, ?_⟩
    rw [padding, List.length_append, List.length_replicate, List.append_assoc, List.replicate_append_replicate]
  rw [hpadded]
  cases body with
  | nil =>
    obtain ⟨k, rfl⟩ : ∃ j, k = j + 1 := Nat.exists_eq_succ_of_ne_zero (by rintro rfl; exact hne rfl)
    rw [List.nil_append, Nat.add_right_comm, List.replicate_succ, decodeStrict, if_pos rfl]
    simp [IsWhole]
  | cons c body =>
    have hc := ne_pad_of_valueOf (hbody c List.mem_cons_self)
    obtain ⟨us, hus, heq⟩ := exists_readStrict_append (by decide : ([] : List Nat).length < 4) hbody
      (List.replicate (k + p) pad)
    rw [List.cons_append] at heq ⊢
    rw [decodeStrict, if_neg hc, heq]
    rw [List.length_nil, Nat.zero_add] at hus
    unfold IsWhole
    -- what is left of the last quad decides, since only two or three values can be settled
    by_cases htwo : us.length < 2
    · rw [isSome_readStrict_replicate_of_lt htwo, ← List.length_eq_zero_iff]
      simp only [List.length_cons] at hus ⊢
      omega
    · rw [isSome_readStrict_replicate (Nat.not_lt.1 htwo) (by omega)]
      simp only [List.length_cons] at hus hp ⊢
      omega

/-- Characters of the standard alphabet from which octets can be read, and padding. -/
def IsStandard (cs : Bytes) : Prop := ∃ body k, cs = body ++ List.replicate k pad ∧
  (∀ c ∈ body, valueOf c ≠ none) ∧ IsWhole body.length k

/-- The strict reader accepts, once its padding is completed, exactly what base64 may look like. -/
theorem exists_decodeStrict_padded_iff (hne : cs ≠ []) :
    (∃ bs, decodeStrict (cs ++ padding cs) = some bs) ↔ IsStandard cs := by
  constructor
  · rintro ⟨bs, h⟩
    have hstrict : readStrict [] 0 false (cs ++ padding cs) = some bs := by
      obtain ⟨c, rest, rfl⟩ := List.exists_cons_of_ne_nil hne
      rw [List.cons_append, decodeStrict] at h
      split at h
      · cases h
      · exact h
    obtain ⟨body, k, heq, hbody, -⟩ := shape_of_readStrict hstrict
    -- the body holds no padding, so what was added lies within the padding behind it
    obtain ⟨j, rfl⟩ : ∃ j, cs = body ++ List.replicate j pad := by
      rcases List.append_eq_append_iff.1 heq with ⟨more, rfl, hpads⟩ | ⟨more, rfl, hpads⟩
      · have hmore : more = [] := by
          refine List.eq_nil_iff_forall_not_mem.2 fun c hc => ?_
          have hpad : c = pad := List.eq_of_mem_replicate (hpads ▸ List.mem_append_left _ hc)
          exact ne_pad_of_valueOf (hbody c (List.mem_append_right _ hc)) hpad
        exact ⟨0, by simp [hmore]⟩
      · refine ⟨more.length, congrArg _ (List.eq_replicate_of_mem fun c hc => ?_)⟩
        exact List.eq_of_mem_replicate (hpads ▸ List.mem_append_left _ hc)
    exact ⟨body, j, rfl, hbody, (isSome_decodeStrict_padded_iff hbody hne).1 (by rw [h]; rfl)⟩
  · rintro ⟨body, k, rfl, hbody, hwhole⟩
    exact Option.isSome_iff_exists.1 ((isSome_decodeStrict_padded_iff hbody hne).2 hwhole)

/-! ## What the lenient reader passes over -/

/-- Whether the lenient reader looks at a character. -/
def isRead (c : UInt8) : Bool := c == pad || (valueOf c).isSome

theorem readLenient_filter (vs : List Nat) (pads : Nat) (cs : Bytes) :
    readLenient vs pads (cs.filter isRead) = readLenient vs pads cs := by
  induction cs generalizing vs pads with
  | nil => rfl
  | cons c cs ih =>
    by_cases hc : c = pad
    · rw [List.filter_cons_of_pos (by simp [isRead, hc]), readLenient, readLenient]
      simp only [ih]
    · cases hv : valueOf c with
      | none => rw [List.filter_cons_of_neg (by simp [isRead, hc, hv]), ih, readLenient_cons_of_foreign hc hv]
      | some v =>
        rw [List.filter_cons_of_pos (by simp [isRead, hv]), readLenient, readLenient]
        simp only [ih]

/-! ## Base64 as text -/

/-- A character of the standard alphabet or of the URL-safe one. -/
def isCharacter (c : Char) : Bool :=
  ('A' ≤ c && c ≤ 'Z') || ('a' ≤ c && c ≤ 'z') || ('0' ≤ c && c ≤ '9') || ['+', '/', '-', '_'].contains c

/-- Characters of the alphabets, and padding at the end. -/
def IsSpelt (t : List Char) : Prop := ∃ body k, t = body ++ List.replicate k '=' ∧ ∀ c ∈ body, isCharacter c = true

/-- Characters of the alphabets from which octets can be read, and padding. -/
def IsText (t : List Char) : Prop := ∃ body k, t = body ++ List.replicate k '=' ∧
  (∀ c ∈ body, isCharacter c = true) ∧ IsWhole body.length k

theorem IsText.isSpelt {t : List Char} (h : IsText t) : IsSpelt t := by
  obtain ⟨body, k, ht, hbody, -⟩ := h
  exact ⟨body, k, ht, hbody⟩

/-- A text of ASCII carries octets when everything foreign in it is passed over. -/
def CarriesOver (t : List Char) (bs : Bytes) : Prop := ∃ cs, t = characters cs ∧ (∀ b ∈ cs, b < 0x80) ∧
  decode (((cs ++ padding cs).map standardise).filter isRead) = some bs

theorem isCharacter_of_valueOf {b : UInt8} (h : valueOf b ≠ none) : isCharacter (Char.ofNat b.toNat) = true := by
  have hall : ∀ n < 256, valueOf (UInt8.ofNat n) ≠ none → isCharacter (Char.ofNat n) = true := by decide +kernel
  exact hall b.toNat b.toNat_lt (by rwa [UInt8.ofNat_toNat])

theorem toNat_lt_of_isCharacter {c : Char} (h : isCharacter c = true) : c.toNat < 128 := by
  have hle : ∀ {d : Char}, c ≤ d → d.toNat < 128 → c.toNat < 128 := fun hcd hd =>
    Nat.lt_of_le_of_lt (UInt32.le_iff_toNat_le.1 hcd) hd
  simp only [isCharacter, Bool.or_eq_true, Bool.and_eq_true, decide_eq_true_eq, List.contains_iff_mem, List.mem_cons,
    List.not_mem_nil, or_false] at h
  rcases h with ((⟨-, h⟩ | ⟨-, h⟩) | ⟨-, h⟩) | rfl | rfl | rfl | rfl
  · exact hle h (by decide)
  · exact hle h (by decide)
  · exact hle h (by decide)
  all_goals decide

theorem valueOf_of_isCharacter {c : Char} (h : isCharacter c = true) (hdash : c ≠ '-') (hline : c ≠ '_') :
    valueOf (UInt8.ofNat c.toNat) ≠ none := by
  have hall : ∀ n < 128, isCharacter (Char.ofNat n) = true → Char.ofNat n ≠ '-' → Char.ofNat n ≠ '_' →
      valueOf (UInt8.ofNat n) ≠ none := by decide +kernel
  have hc := hall c.toNat (toNat_lt_of_isCharacter h)
  rw [Char.ofNat_toNat] at hc
  exact hc h hdash hline

theorem characters_append_replicate (body : Bytes) (k : Nat) :
    characters (body ++ List.replicate k pad) = characters body ++ List.replicate k '=' := by
  rw [characters, List.map_append, List.map_replicate]
  rfl

theorem IsStandard.isText (h : IsStandard cs) : IsText (characters cs) := by
  obtain ⟨body, k, rfl, hbody, hwhole⟩ := h
  refine ⟨characters body, k, characters_append_replicate body k, ?_, by rwa [characters, List.length_map]⟩
  intro c hc
  obtain ⟨b, hb, rfl⟩ := List.mem_map.1 hc
  exact isCharacter_of_valueOf (hbody b hb)

/-- Base64 without the URL-safe characters is standard base64. -/
theorem IsText.isStandard {t : List Char} (h : IsText t) (hmarked : ¬ IsMarkedText t) :
    ∃ cs, t = characters cs ∧ (∀ b ∈ cs, b < 0x80) ∧ IsStandard cs := by
  obtain ⟨body, k, rfl, hbody, hwhole⟩ := h
  rw [IsMarkedText, not_or] at hmarked
  have hascii : asciiOf (String.ofList (body ++ List.replicate k '=')) =
      some ((body ++ List.replicate k '=').map fun c => UInt8.ofNat c.toNat) := by
    rw [asciiOf, String.toList_ofList, if_pos]
    rw [List.all_eq_true]
    intro c hc
    rcases List.mem_append.1 hc with hc | hc
    · exact decide_eq_true (toNat_lt_of_isCharacter (hbody c hc))
    · rw [List.eq_of_mem_replicate hc]
      decide
  obtain ⟨ht, hlt⟩ := asciiOf_eq_some_iff.1 hascii
  refine ⟨_, ht, hlt, body.map fun c => UInt8.ofNat c.toNat, k, ?_, ?_, by rwa [List.length_map]⟩
  · rw [List.map_append, List.map_replicate]
    rfl
  · intro b hb
    obtain ⟨c, hc, rfl⟩ := List.mem_map.1 hb
    refine valueOf_of_isCharacter (hbody c hc) ?_ ?_
    · rintro rfl
      exact hmarked.1 (List.mem_append_left _ hc)
    · rintro rfl
      exact hmarked.2 (List.mem_append_left _ hc)

theorem IsText.ne_nil {t : List Char} (h : IsText t) : t ≠ [] := by
  obtain ⟨body, k, rfl, -, hwhole⟩ := h
  intro hnil
  exact hwhole.1 (List.length_eq_zero_iff.2 (List.append_eq_nil_iff.1 hnil).1)

end Base64

namespace Http

open Base64 (CarriesOver IsMarkedText IsSpelt IsText isRead characters padding standardise)

variable {s : String} {bs : Bytes}

/-! ## Certificates that are refused -/

/-- There is one way to be refused. -/
theorem decodeCertificate_cases (v : Value) :
    (∃ bs, decodeCertificate v = .ok bs) ∨ decodeCertificate v = .error (.value .notBase64) := by
  unfold decodeCertificate
  split
  · dsimp only
    split
    · exact .inl ⟨_, rfl⟩
    · exact .inr rfl
  · exact .inr rfl

/-- Of the texts that are not taken to be URL-safe those are accepted that are base64. -/
theorem exists_decodeCertificate_iff (h : ¬ IsMarkedText (Text.trimList s.toList)) :
    (∃ bs, decodeCertificate (.text s) = .ok bs) ↔ IsText (Text.trimList s.toList) := by
  have hoctets : ∀ {cs}, Text.trimList s.toList = characters cs → (∀ b ∈ cs, b < 0x80) →
      octets? cs = Base64.decodeStrict (cs ++ padding cs) := fun ht hcs => by
    rw [ht, Base64.isMarkedText_characters_iff hcs] at h
    rw [octets?, if_neg h]
  constructor
  · rintro ⟨bs, hbs⟩
    obtain ⟨cs, hne, ht, hcs, hread⟩ := decodeCertificate_eq_ok_iff.1 hbs
    rw [hoctets ht hcs] at hread
    rw [ht]
    exact ((Base64.exists_decodeStrict_padded_iff hne).1 ⟨bs, hread⟩).isText
  · intro htext
    obtain ⟨cs, ht, hcs, hstandard⟩ := htext.isStandard h
    have hne : cs ≠ [] := by
      rintro rfl
      exact htext.ne_nil ht
    obtain ⟨bs, hread⟩ := (Base64.exists_decodeStrict_padded_iff hne).2 hstandard
    exact ⟨bs, decodeCertificate_eq_ok_iff.2 ⟨cs, hne, ht, hcs, (hoctets ht hcs).trans hread⟩⟩

/-- Of a text that is taken to be URL-safe everything foreign is passed over. -/
theorem decodeCertificate_of_isMarkedText (h : IsMarkedText (Text.trimList s.toList)) :
    decodeCertificate (.text s) = .ok bs ↔ CarriesOver (Text.trimList s.toList) bs := by
  have hoctets : ∀ {cs}, Text.trimList s.toList = characters cs → (∀ b ∈ cs, b < 0x80) →
      octets? cs = Base64.decode (((cs ++ padding cs).map standardise).filter isRead) := fun ht hcs => by
    rw [ht, Base64.isMarkedText_characters_iff hcs] at h
    rw [octets?, if_pos h, Base64.decode, Base64.readLenient_filter]
    rfl
  rw [decodeCertificate_eq_ok_iff]
  constructor
  · rintro ⟨cs, -, ht, hcs, hread⟩
    exact ⟨cs, ht, hcs, (hoctets ht hcs).symm.trans hread⟩
  · rintro ⟨cs, ht, hcs, hread⟩
    refine ⟨cs, ?_, ht, hcs, (hoctets ht hcs).trans hread⟩
    rintro rfl
    rw [ht] at h
    rcases h with h | h <;> cases h

/-- What is accepted without being spelt in base64 is taken to be URL-safe. -/
theorem accepted_misspelt_iff : (∃ bs, decodeCertificate (.text s) = .ok bs) ∧ ¬ IsSpelt (Text.trimList s.toList) ↔
    IsMarkedText (Text.trimList s.toList) ∧ ¬ IsSpelt (Text.trimList s.toList) ∧
      ∃ bs, CarriesOver (Text.trimList s.toList) bs := by
  by_cases hmarked : IsMarkedText (Text.trimList s.toList)
  · simp only [decodeCertificate_of_isMarkedText hmarked, hmarked, true_and]
    exact and_comm
  · simp only [hmarked, false_and, iff_false, not_and, not_not]
    exact fun haccepted => ((exists_decodeCertificate_iff hmarked).1 haccepted).isSpelt

/-! ## The answer to a request -/

variable [Json.Limits]

/-- A request that brings a list of certificates to be validated. -/
structure Brings (r : Request) (xs : List Value) : Prop where
  method : r.method = "POST"
  target : Target.ofText r.target = .ok ⟨"/api/mds/verify".toList, false⟩
  kind : isJson r.contentType = true
  body : ∃ fields, Json.ofBytes r.body = .ok (.map fields) ∧ Value.field? "x5c" fields = some (.list xs)

variable {r : Request} {xs : List Value}

theorem Brings.document (h : Brings r xs) : ∃ fields, document r = .ok (some (.map fields)) ∧
    Value.field? "x5c" fields = some (.list xs) := by
  obtain ⟨fields, hbody, hlisted⟩ := h.body
  exact ⟨fields, document_eq_some_iff.2 ⟨h.kind, hbody⟩, hlisted⟩

omit [Json.Limits] in
theorem mapM_decodeCertificate_of_refused (hx : ∃ x ∈ xs, ∀ bs, decodeCertificate x ≠ .ok bs) :
    xs.mapM decodeCertificate = .error (.value .notBase64) := by
  obtain ⟨before, x, after, rfl, hbefore, hx⟩ := exists_first_of_exists hx
  refine (mapM_eq_error_iff _).2 ⟨before, x, after, rfl, fun b hb => ?_, ?_⟩
  · simpa using hbefore b hb
  · exact (decodeCertificate_cases x).resolve_left fun ⟨bs, hbs⟩ => hx bs hbs

/-- One certificate that is refused is enough. -/
theorem handle_of_refused (s : Service) (w : World) (h : Brings r xs)
    (hrefused : ∃ x ∈ xs, ∀ bs, decodeCertificate x ≠ .ok bs) : handle s r w =
      (.ok (s, answer 400 (errorBody "Certificates must be base64 encoded strings.")), w) := by
  obtain ⟨fields, hdocument, hlisted⟩ := h.document
  have hquestion : readQuestion (some (.map fields)) = .error "Certificates must be base64 encoded strings." := by
    obtain ⟨y, ys, rfl⟩ := List.exists_cons_of_ne_nil (fun hnil => by simp [hnil] at hrefused : xs ≠ [])
    rw [readQuestion]
    simp only [hlisted, mapM_decodeCertificate_of_refused hrefused]
    rfl
  have hfind : find r.method false "/api/mds/verify".toList = .route verifyRoute := by
    rw [h.method]
    rfl
  have hverify : verifyRoute.run s r w =
      (.ok (s, .ok (answer 400 (errorBody "Certificates must be base64 encoded strings."))), w) := by
    rw [run_verifyRoute]
    unfold verify
    rw [hdocument, Except.map, hquestion]
    rfl
  have hmethod : r.method ≠ "OPTIONS" := by
    rw [h.method]
    decide
  rw [handle_of_run h.target hfind hmethod hverify]
  rfl

/-- A text is accepted without being spelt in base64 exactly if it is taken to be URL-safe and carries octets when
everything foreign in it is passed over.  Of the other texts those are accepted that are base64.  What is not accepted
is refused in one way, and a request that brings it is answered so, the service and all around it being left as they
are. -/
theorem refused_unless_marked (text : String) (v : Value) (s : Service) (w : World) (r : Request) (xs : List Value) :
    ((∃ bs, decodeCertificate (.text text) = .ok bs) ∧ ¬ IsSpelt (Text.trimList text.toList) ↔
      IsMarkedText (Text.trimList text.toList) ∧ ¬ IsSpelt (Text.trimList text.toList) ∧
        ∃ bs, CarriesOver (Text.trimList text.toList) bs) ∧
    (¬ IsMarkedText (Text.trimList text.toList) →
      ((∃ bs, decodeCertificate (.text text) = .ok bs) ↔ IsText (Text.trimList text.toList))) ∧
    (IsMarkedText (Text.trimList text.toList) →
      ∀ bs, decodeCertificate (.text text) = .ok bs ↔ CarriesOver (Text.trimList text.toList) bs) ∧
    ((∃ bs, decodeCertificate v = .ok bs) ∨ decodeCertificate v = .error (.value .notBase64)) ∧
    (Brings r xs → (∃ x ∈ xs, ∀ bs, decodeCertificate x ≠ .ok bs) →
      handle s r w = (.ok (s, answer 400 (errorBody "Certificates must be base64 encoded strings.")), w)) :=
  ⟨accepted_misspelt_iff, exists_decodeCertificate_iff, fun hmarked _ => decodeCertificate_of_isMarkedText hmarked,
    decodeCertificate_cases v, handle_of_refused s w⟩

omit [Json.Limits] in
/-- A text with a dash is accepted, although it is no base64: what is foreign in it is passed over. -/
theorem decodeCertificate_passes_over :
    decodeCertificate (.text "-!AAA") = .ok [0xf8, 0, 0] ∧ ¬ IsSpelt (Text.trimList "-!AAA".toList) := by
  have htrim : Text.trimList "-!AAA".toList = ['-', '!', 'A', 'A', 'A'] := by decide
  have hascii : ∀ b ∈ ([45, 33, 65, 65, 65] : Bytes), b < 0x80 := by simp
  refine ⟨decodeCertificate_eq_ok_iff.2 ⟨[45, 33, 65, 65, 65], by decide, htrim, hascii, by decide⟩, ?_⟩
  rintro ⟨body, k, heq, hbody⟩
  rw [htrim] at heq
  -- the foreign character is no padding, so it would stand in the body
  have hmem : '!' ∈ body ++ List.replicate k '=' := heq ▸ (by decide : '!' ∈ ['-', '!', 'A', 'A', 'A'])
  rcases List.mem_append.1 hmem with hmem | hmem
  · exact absurd (hbody _ hmem) (by decide)
  · exact absurd (List.eq_of_mem_replicate hmem) (by decide)

end Http
end AttestationTrust
