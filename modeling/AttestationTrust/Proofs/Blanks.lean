import Mathlib.Data.List.Basic
import Mathlib.Data.List.TakeWhile
import AttestationTrust.Text.Blank
/-!
# Blanks around a text

Trimming a text takes the blanks at its two ends away and nothing else: what it leaves is the one word that neither
begins nor ends with a blank and has nothing but blanks around it (`Text.trimList_eq_iff`).
-/
namespace AttestationTrust
namespace Text

variable {before word after cs : List Char}

/-- A text neither begins nor ends with a blank. -/
def IsBare (word : List Char) : Prop :=
  (∀ c ∈ word.head?, isBlank c = false) ∧ ∀ c ∈ word.getLast?, isBlank c = false

/-- A text has a word in it, and nothing but blanks around it. -/
def Leaves (cs word : List Char) : Prop := ∃ before after,
  cs = before ++ word ++ after ∧ (∀ c ∈ before, isBlank c = true) ∧ (∀ c ∈ after, isBlank c = true) ∧ IsBare word

theorem Leaves.isBare (h : Leaves cs word) : IsBare word := by
  obtain ⟨before, after, -, -, -, hbare⟩ := h
  exact hbare

theorem ofList_eq_iff {t : String} : String.ofList cs = t ↔ cs = t.toList := by
  rw [← String.toList_inj, String.toList_ofList]

theorem isBare_of_forall (h : ∀ c ∈ word, isBlank c = false) : IsBare word :=
  ⟨fun c hc => h c (List.mem_of_mem_head? hc), fun c hc => h c (List.mem_of_mem_getLast? hc)⟩

theorem trimList_of_forall (h : ∀ c ∈ cs, isBlank c = true) : trimList cs = [] := by
  rw [trimList, List.dropWhile_eq_nil_iff.2 h]
  rfl

theorem dropWhile_eq_self_of_head? {p : Char → Bool} (h : ∀ c ∈ cs.head?, p c = false) : cs.dropWhile p = cs := by
  cases cs with
  | nil => rfl
  | cons c rest => exact List.dropWhile_cons_of_neg (by simp [h c rfl])

theorem dropWhile_append_of_head? {p : Char → Bool} (h : ∀ c ∈ before, p c = true)
    (hafter : ∀ c ∈ after.head?, p c = false) : (before ++ after).dropWhile p = after := by
  rw [List.dropWhile_append_of_pos h, dropWhile_eq_self_of_head? hafter]

theorem takeWhile_append_of_head? {p : Char → Bool} (h : ∀ c ∈ before, p c = true)
    (hafter : ∀ c ∈ after.head?, p c = false) : (before ++ after).takeWhile p = before := by
  rw [List.takeWhile_append_of_pos h]
  cases after with
  | nil => simp
  | cons c rest => simp [hafter c rfl]

theorem trimList_append_of_isBare (hbefore : ∀ c ∈ before, isBlank c = true) (hafter : ∀ c ∈ after, isBlank c = true)
    (h : IsBare word) : trimList (before ++ word ++ after) = word := by
  by_cases hword : word = []
  · subst hword
    refine trimList_of_forall fun c hc => ?_
    rw [List.append_nil] at hc
    exact (List.mem_append.1 hc).elim (hbefore c) (hafter c)
  · have hstart : (word ++ after).dropWhile isBlank = word ++ after := by
      refine dropWhile_eq_self_of_head? ?_
      rw [List.head?_append_of_ne_nil word hword]
      exact h.1
    have hend : word.reverse.dropWhile isBlank = word.reverse := by
      refine dropWhile_eq_self_of_head? ?_
      rw [List.head?_reverse]
      exact h.2
    rw [trimList, List.append_assoc, List.dropWhile_append_of_pos hbefore, hstart, List.reverse_append,
      List.dropWhile_append_of_pos fun c hc => hafter c (List.mem_reverse.1 hc), hend, List.reverse_reverse]

theorem leaves_trimList (cs : List Char) : Leaves cs (trimList cs) := by
  have hfirst := List.takeWhile_append_dropWhile (p := isBlank) (l := cs)
  have hlast : trimList cs ++ ((cs.dropWhile isBlank).reverse.takeWhile isBlank).reverse = cs.dropWhile isBlank := by
    rw [trimList, ← List.reverse_append, List.takeWhile_append_dropWhile, List.reverse_reverse]
  refine ⟨cs.takeWhile isBlank, ((cs.dropWhile isBlank).reverse.takeWhile isBlank).reverse, ?_,
    fun c hc => List.mem_takeWhile_imp hc, fun c hc => List.mem_takeWhile_imp (List.mem_reverse.1 hc), ?_, ?_⟩
  · rw [List.append_assoc, hlast, hfirst]
  · intro c hc
    have hnot := List.head?_dropWhile_not isBlank cs
    rw [← hlast, List.mem_head?_append_of_mem_head? hc] at hnot
    exact hnot
  · intro c hc
    rw [trimList, List.getLast?_reverse] at hc
    have hnot := List.head?_dropWhile_not isBlank (cs.dropWhile isBlank).reverse
    rw [hc] at hnot
    exact hnot

/-- Trimming finds the word that has nothing but blanks around it, and there is no other. -/
theorem trimList_eq_iff : trimList cs = word ↔ Leaves cs word := by
  constructor
  · rintro rfl
    exact leaves_trimList cs
  · rintro ⟨before, after, rfl, hbefore, hafter, hbare⟩
    exact trimList_append_of_isBare hbefore hafter hbare

end Text
end AttestationTrust
