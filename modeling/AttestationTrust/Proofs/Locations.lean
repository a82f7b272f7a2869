import AttestationTrust.Proofs.Blanks
import AttestationTrust.Provider
/-!
# Locations of providers

A provider can be made for a text that names an authority on the web: a scheme of the web in any case, two slashes, and
characters up to the next slash, question mark or number sign (`Url.Names`).  Controls and spaces before a location, and
tabs and line ends anywhere in it, do not count (`Url.essence`).  Every other text is refused as a value that does not
fit (`Provider.make_iff_names`).  What is asked of the authority is that it is not empty, and that is less than a host:
it may hold nothing but a user and a port (`Url.IsHostless`).
-/
namespace AttestationTrust
namespace Url

open Text (takeWhile_append_of_head?)

variable {s : String} {cs before after word authority rest : List Char} {c : Char}

/-- What counts of a text that is read as a location. -/
def essence (s : String) : List Char := (s.toList.dropWhile isLeading).filter fun c => !isRemoved c

/-- The schemes of the web. -/
def webSchemes : List (List Char) := ["http".toList, "https".toList]

/-- A text names an authority on the web, which is not empty. -/
structure Names (s : String) (authority : List Char) : Prop where
  parts : ∃ word rest, essence s = word ++ ':' :: '/' :: '/' :: (authority ++ rest) ∧
    word.map Text.lowerChar ∈ webSchemes ∧ ∀ c ∈ rest.head?, endsAuthority c = true
  ne_nil : authority ≠ []
  whole : ∀ c ∈ authority, endsAuthority c = false

/-- Brackets are where they may be, and no character stands for a delimiter in disguise. -/
def IsSound (authority : List Char) : Prop :=
  areBracketsSound authority = true ∧ ∀ c ∈ authority, c.toNat ∉ disguisedDelimiters

/-- An authority has no host: a user behind which an at sign stands, a port before which a colon stands, or both or
neither of them. -/
def IsHostless (authority : List Char) : Prop := ∃ user port, authority = user ++ port ∧
  (∀ c ∈ user.getLast?, c = '@') ∧ (∀ c ∈ port.head?, c = ':') ∧ '@' ∉ port

/-! ## Cutting a text -/

theorem cut_append (h : c ∉ before) (after : List Char) : cut c (before ++ c :: after) = some (before, after) := by
  have hbefore : ∀ d ∈ before, (d != c) = true := fun d hd => bne_iff_ne.2 fun heq => h (heq ▸ hd)
  rw [cut, List.dropWhile_append_of_pos hbefore, List.dropWhile_cons_of_neg (by simp)]
  exact congrArg some (congrArg (·, after) (takeWhile_append_of_head? hbefore (by simp)))

theorem cut_of_not_mem (h : c ∉ cs) : cut c cs = none := by
  have hdrop : cs.dropWhile (· != c) = [] :=
    List.dropWhile_eq_nil_iff.2 fun d hd => bne_iff_ne.2 fun heq => h (heq ▸ hd)
  rw [cut, hdrop]

/-- A text is cut at the first occurrence of a character, or the character does not occur in it. -/
theorem cut_cases (c : Char) (cs : List Char) : (c ∉ cs ∧ cut c cs = none) ∨
    ∃ before after, cs = before ++ c :: after ∧ c ∉ before ∧ cut c cs = some (before, after) := by
  by_cases h : c ∈ cs
  · obtain ⟨before, after, rfl, hbefore⟩ := List.eq_append_cons_of_mem h
    exact .inr ⟨before, after, rfl, hbefore, cut_append hbefore after⟩
  · exact .inl ⟨h, cut_of_not_mem h⟩

/-! ## The scheme -/

theorem isLetter_of_lowerChar (h : Text.lowerChar c ∈ "https".toList) : isLetter c = true := by
  unfold Text.lowerChar at h
  split at h
  · next hupper => simp [isLetter, hupper.1, hupper.2]
  · have hall : ∀ d ∈ "https".toList, isLetter d = true := List.all_eq_true.1 (by decide)
    exact hall c h

theorem isLetter_of_webSchemes (h : word.map Text.lowerChar ∈ webSchemes) :
    word ≠ [] ∧ ∀ c ∈ word, isLetter c = true := by
  have hschemes : ∀ scheme ∈ webSchemes, scheme ≠ [] ∧ scheme ⊆ "https".toList := by decide
  obtain ⟨hne, hall⟩ := hschemes _ h
  refine ⟨fun hnil => hne (by rw [hnil]; rfl), fun c hc => isLetter_of_lowerChar (hall (List.mem_map_of_mem hc))⟩

theorem splitScheme_of_web (h : word.map Text.lowerChar ∈ webSchemes) (rest : List Char) :
    splitScheme (word ++ ':' :: rest) = (word.map Text.lowerChar, rest) := by
  obtain ⟨hne, hletters⟩ := isLetter_of_webSchemes h
  have hcolon : ':' ∉ word := fun hmem => absurd (hletters _ hmem) (by decide)
  obtain ⟨c, word, rfl⟩ := List.exists_cons_of_ne_nil hne
  obtain ⟨hfirst, hothers⟩ := List.forall_mem_cons.1 hletters
  have hword : word.all isSchemeChar = true := by
    rw [List.all_eq_true]
    exact fun d hd => by simp [isSchemeChar, hothers d hd]
  rw [splitScheme, cut_append hcolon]
  simp [hfirst, hword]

theorem eq_of_splitScheme {scheme : List Char} (h : splitScheme cs = (scheme, rest)) (hne : scheme ≠ []) :
    ∃ word, cs = word ++ ':' :: rest ∧ word.map Text.lowerChar = scheme := by
  rcases cut_cases ':' cs with ⟨-, hcut⟩ | ⟨before, after, heq, -, hcut⟩
  · rw [splitScheme, hcut] at h
    cases h
    exact absurd rfl hne
  · rw [splitScheme, hcut] at h
    cases before with
    | nil =>
      cases h
      exact absurd rfl hne
    | cons c word =>
      dsimp only at h
      split at h
      · cases h
        exact ⟨c :: word, heq, rfl⟩
      · cases h
        exact absurd rfl hne

/-! ## The authority -/

/-- The authority in what follows the scheme. -/
def authorityOf : List Char → List Char
  | '/' :: '/' :: rest => rest.takeWhile fun c => !endsAuthority c
  | _ => []

theorem authorityOf_of_ne (h : ∀ rest, cs = '/' :: '/' :: rest → False) : authorityOf cs = [] := by
  unfold authorityOf
  split
  · exact (h _ rfl).elim
  · rfl

theorem authorityOf_append (h : ∀ c ∈ authority, endsAuthority c = false)
    (hrest : ∀ c ∈ rest.head?, endsAuthority c = true) :
    authorityOf ('/' :: '/' :: (authority ++ rest)) = authority :=
  takeWhile_append_of_head? (fun c hc => by simp [h c hc]) fun c hc => by simp [hrest c hc]

theorem eq_of_authorityOf (h : authorityOf cs = authority) (hne : authority ≠ []) : ∃ rest,
    cs = '/' :: '/' :: (authority ++ rest) ∧ (∀ c ∈ authority, endsAuthority c = false) ∧
      ∀ c ∈ rest.head?, endsAuthority c = true := by
  unfold authorityOf at h
  split at h
  · next rest =>
    subst h
    refine ⟨rest.dropWhile fun c => !endsAuthority c, by rw [List.takeWhile_append_dropWhile], fun c hc => ?_,
      fun c hc => ?_⟩
    · simpa using List.mem_takeWhile_imp hc
    · have hnot := List.head?_dropWhile_not (fun c => !endsAuthority c) rest
      rw [hc] at hnot
      simpa using hnot
  · exact absurd h.symm hne

instance (authority : List Char) : Decidable (IsSound authority) :=
  @instDecidableAnd _ _ inferInstance (List.decidableBAll _ _)

/-- A text is split if its authority is sound, and else it is not. -/
theorem split?_cases (s : String) : ∃ path query, split? s =
    if IsSound (authorityOf (splitScheme (essence s)).2) then
      some ⟨String.ofList (splitScheme (essence s)).1, String.ofList (authorityOf (splitScheme (essence s)).2), path,
        query⟩
    else none := by
  have hsound : ∀ a : List Char, (areBracketsSound a && a.all fun c => !disguisedDelimiters.contains c.toNat) = true ↔
      IsSound a := by
    intro a
    simp [IsSound]
  unfold split?
  rw [← essence]
  dsimp only
  simp only [hsound]
  generalize (splitScheme (essence s)).2 = rest
  split
  · exact ⟨_, _, rfl⟩
  · next hslashes =>
    rw [authorityOf_of_ne hslashes]
    exact ⟨_, _, rfl⟩

theorem Names.splitScheme_eq (h : Names s authority) : (splitScheme (essence s)).1 ∈ webSchemes ∧
    authorityOf (splitScheme (essence s)).2 = authority := by
  obtain ⟨word, rest, heq, hword, hrest⟩ := h.parts
  rw [heq, splitScheme_of_web hword]
  exact ⟨hword, authorityOf_append h.whole hrest⟩

theorem names_iff : Names s authority ↔ (splitScheme (essence s)).1 ∈ webSchemes ∧
    authorityOf (splitScheme (essence s)).2 = authority ∧ authority ≠ [] := by
  constructor
  · intro h
    exact ⟨h.splitScheme_eq.1, h.splitScheme_eq.2, h.ne_nil⟩
  · rcases hsplit : splitScheme (essence s) with ⟨scheme, after⟩
    dsimp only
    rintro ⟨hscheme, hauthority, hne⟩
    obtain ⟨rest, rfl, hwhole, hrest⟩ := eq_of_authorityOf hauthority hne
    have hschemeNe : scheme ≠ [] := fun hnil => by
      rw [hnil] at hscheme
      exact absurd hscheme (by decide)
    obtain ⟨word, heq, hword⟩ := eq_of_splitScheme hsplit hschemeNe
    exact ⟨⟨word, rest, heq, hword ▸ hscheme, hrest⟩, hne, hwhole⟩

/-- A text is taken for the location of a web server exactly if it names an authority on the web, and that is sound. -/
theorem split?_isWeb_iff : (∃ u, split? s = some u ∧ u.isWeb = true) ↔
    ∃ authority, Names s authority ∧ IsSound authority := by
  obtain ⟨path, query, hsplit⟩ := split?_cases s
  have hweb : ∀ scheme authority, (⟨String.ofList scheme, String.ofList authority, path, query⟩ : Url).isWeb = true ↔
      scheme ∈ webSchemes ∧ authority ≠ [] := by
    intro scheme authority
    simp only [isWeb, webSchemes, List.mem_cons, List.not_mem_nil, or_false, Bool.and_eq_true, Bool.or_eq_true,
      beq_iff_eq, bne_iff_ne, ne_eq, Text.ofList_eq_iff]
    rfl
  simp only [names_iff, hsplit]
  constructor
  · rintro ⟨u, hu, hisWeb⟩
    split at hu
    · next hsound =>
      cases hu
      obtain ⟨hscheme, hne⟩ := (hweb _ _).1 hisWeb
      exact ⟨_, ⟨hscheme, rfl, hne⟩, hsound⟩
    · cases hu
  · rintro ⟨authority, ⟨hscheme, rfl, hne⟩, hsound⟩
    exact ⟨_, if_pos hsound, (hweb _ _).2 ⟨hscheme, hne⟩⟩

/-! ## The host -/

theorem hostAndPort_append {user port : List Char} (huser : ∀ c ∈ user.getLast?, c = '@') (hport : '@' ∉ port) :
    hostAndPort (user ++ port) = port := by
  have htake : (port.reverse ++ user.reverse).takeWhile (· != '@') = port.reverse := by
    refine takeWhile_append_of_head? (fun c hc => bne_iff_ne.2 ?_) fun c hc => ?_
    · rintro rfl
      exact hport (List.mem_reverse.1 hc)
    · rw [List.head?_reverse] at hc
      simp [huser c hc]
  rw [hostAndPort, List.reverse_append, htake, List.reverse_reverse]

theorem exists_user (authority : List Char) : ∃ user, authority = user ++ hostAndPort authority ∧
    (∀ c ∈ user.getLast?, c = '@') ∧ '@' ∉ hostAndPort authority := by
  refine ⟨(authority.reverse.dropWhile (· != '@')).reverse, ?_, fun c hc => ?_, fun hmem => ?_⟩
  · rw [hostAndPort, ← List.reverse_append, List.takeWhile_append_dropWhile, List.reverse_reverse]
  · rw [List.getLast?_reverse] at hc
    have hnot := List.head?_dropWhile_not (· != '@') authority.reverse
    rw [hc] at hnot
    simpa using hnot
  · simpa using List.mem_takeWhile_imp (List.mem_reverse.1 hmem)

theorem ne_nil_of_isBracketedHost {host : List Char} (h : isBracketedHost host = true) : host ≠ [] := by
  rintro rfl
  exact absurd h (by decide)

theorem contains_of_mem_hostAndPort (h : c ∈ hostAndPort authority) : authority.contains c = true := by
  obtain ⟨user, heq, -, -⟩ := exists_user authority
  rw [List.contains_iff_mem, heq]
  exact List.mem_append_right _ h

/-- Where a bracket opens in what a sound authority has behind its user, it opens there and holds the host. -/
theorem of_bracket_mem (h : areBracketsSound authority = true) (hmem : '[' ∈ hostAndPort authority) :
    (hostAndPort authority).head? = some '[' ∧ (hostParts authority).1 ≠ [] := by
  have hopen : authority.contains '[' = true := contains_of_mem_hostAndPort hmem
  rcases cut_cases '[' (hostAndPort authority) with ⟨hno, -⟩ | ⟨before, inside, heq, -, hcut⟩
  · exact absurd hmem hno
  · obtain ⟨hbefore, hhost⟩ :
        before.isEmpty = true ∧ isBracketedHost ((cut ']' inside).getD (inside, [])).1 = true := by
      unfold areBracketsSound at h
      dsimp only at h
      rw [hopen, hcut] at h
      cases hclose : authority.contains ']' with
      | false =>
        rw [hclose] at h
        cases h
      | true =>
        rw [hclose, if_neg (by decide), if_neg (by decide)] at h
        dsimp only at h
        rcases hend : cut ']' inside with _ | ⟨host, _ | ⟨c, after⟩⟩ <;> rw [hend] at h <;>
          simp only [Bool.and_eq_true] at h
        · exact h
        · exact h
        · exact ⟨h.1.1, h.2⟩
    refine ⟨by rw [heq, List.isEmpty_iff.1 hbefore]; rfl, ?_⟩
    rw [hostParts, hcut]
    exact ne_nil_of_isBracketedHost hhost

theorem hostParts_fst_of_not_mem (h : '[' ∉ hostAndPort authority) :
    (hostParts authority).1 = (hostAndPort authority).takeWhile (· != ':') := by
  rw [hostParts, cut_of_not_mem h]
  rcases cut_cases ':' (hostAndPort authority) with ⟨hcolon, hcut⟩ | ⟨host, port, heq, hcolon, hcut⟩
  · have hall : ∀ c ∈ hostAndPort authority, (c != ':') = true := fun c hc => by
      rw [bne_iff_ne]
      rintro rfl
      exact hcolon hc
    rw [hcut, List.takeWhile_eq_self_iff.2 hall]
    rfl
  · have hall : ∀ c ∈ host, (c != ':') = true := fun c hc => by
      rw [bne_iff_ne]
      rintro rfl
      exact hcolon hc
    rw [hcut, heq, takeWhile_append_of_head? hall (by simp)]
    rfl

/-- A sound authority has no host exactly if it consists of a user and a port. -/
theorem hostParts_fst_eq_nil_iff (h : IsSound authority) : (hostParts authority).1 = [] ↔ IsHostless authority := by
  constructor
  · intro hnil
    obtain ⟨user, heq, huser, hat⟩ := exists_user authority
    refine ⟨user, hostAndPort authority, heq, huser, fun c hc => ?_, hat⟩
    have hno : '[' ∉ hostAndPort authority := fun hmem => (of_bracket_mem h.1 hmem).2 hnil
    rw [hostParts_fst_of_not_mem hno] at hnil
    obtain ⟨rest, heq⟩ := List.head?_eq_some_iff.1 hc
    rw [heq] at hnil
    by_contra hcolon
    rw [List.takeWhile_cons_of_pos (by simpa using hcolon)] at hnil
    cases hnil
  · rintro ⟨user, port, rfl, huser, hport, hat⟩
    have hbehind := hostAndPort_append huser hat
    have hno : '[' ∉ hostAndPort (user ++ port) := fun hmem => by
      have hfirst := (of_bracket_mem h.1 hmem).1
      rw [hbehind] at hfirst
      exact absurd (hport _ hfirst) (by decide)
    rw [hostParts_fst_of_not_mem hno, hbehind]
    cases port with
    | nil => rfl
    | cons c port => exact List.takeWhile_cons_of_neg (by simp [hport c rfl])

end Url

namespace Provider

open X509 (Certificate)

/-- **A provider can be made for a location on the web**, under a timeout that is one: exactly if the text names a sound
authority, which is then not empty.  Any other text is refused as a value that does not fit.  An authority that is named
so has a host, unless it consists of a user and a port. -/
theorem make_iff_names (url : String) (root : Certificate) (timeout : Value) :
    ((∃ p, make (.text url) root timeout = .ok p) ↔
      (∃ authority, Url.Names url authority ∧ Url.IsSound authority) ∧ ∃ t, timeoutOf timeout = .ok t) ∧
    (¬ (∃ authority, Url.Names url authority ∧ Url.IsSound authority) →
      ∃ f, make (.text url) root timeout = .error (.value f)) ∧
    ∀ authority, Url.Names url authority → Url.IsSound authority →
      ((Url.hostParts authority).1 = [] ↔ Url.IsHostless authority) := by
  have hcheck : (∃ authority, Url.Names url authority ∧ Url.IsSound authority) ∧ checkUrl (.text url) = .ok url ∨
      ¬ (∃ authority, Url.Names url authority ∧ Url.IsSound authority) ∧
        ∃ f, checkUrl (.text url) = .error (.value f) := by
    rw [← Url.split?_isWeb_iff, checkUrl]
    cases hsplit : Url.split? url with
    | none => simp
    | some u => cases hweb : u.isWeb <;> simp [hweb]
  refine ⟨?_, ?_, fun authority _ hsound => Url.hostParts_fst_eq_nil_iff hsound⟩
  · rw [make]
    rcases hcheck with ⟨hplace, h⟩ | ⟨hno, f, h⟩
    · cases ht : timeoutOf timeout <;> simp [h, hplace, bind, Except.bind]
    · simp [h, hno, bind, Except.bind]
  · intro hno
    obtain ⟨f, h⟩ := (hcheck.resolve_left fun hplace => hno hplace.1).2
    refine ⟨f, ?_⟩
    rw [make, h]
    rfl

/-- A port is enough for a provider. -/
theorem make_of_port : Url.Names "https://:443" ":443".toList ∧ (Url.hostParts ":443".toList).1 = [] ∧
    ∀ root, make (.text "https://:443") root (.int 10) = .ok ⟨"https://:443", root, .integer 10, true, none, none⟩ := by
  refine ⟨Url.names_iff.2 ?_, ?_, fun root => rfl⟩
  · decide
  · decide

end Provider
end AttestationTrust
