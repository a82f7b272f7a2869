import AttestationTrust.Anchor
import AttestationTrust.Proofs.Payloads
/-!
# Models from which trust is withdrawn

The reports of an entry that bear the latest day are its latest ones; where none bears a day, the last one listed is.
One of them counts (`StatusReport.Counts`): of several that bear the latest day the first that is listed.  So a latest
report that withdraws trust is heeded unless it is masked, by an earlier one of the same day that does not
(`StatusReport.Masked`), and an entry that is trusted in whatever order its reports are listed has no latest report
that withdraws trust (`Entry.trusted_iff_latest_or_masked`).  A lookup answers as if an entry that is not trusted
were not there.
-/
namespace AttestationTrust
namespace Metadata

namespace StatusReport

variable {reports reports' : List StatusReport} {r r' best : StatusReport} {day day' : Int}

/-- The day that a report bears; there is no day zero. -/
def day? (r : StatusReport) : Option Int :=
  match r.effectiveDate with
  | .int day => if day = 0 then none else some day
  | _ => none

def IsUpTo (day : Int) (reports : List StatusReport) : Prop := ∀ b ∈ reports, ∀ d, b.day? = some d → d ≤ day

def IsAfter (day : Int) (reports : List StatusReport) : Prop := ∀ b ∈ reports, ∀ d, b.day? = some d → d < day

/-- A report is among the latest of an entry. -/
inductive IsLatest (reports : List StatusReport) (r : StatusReport) : Prop
  | dated {day : Int} (hr : r ∈ reports) (hday : r.day? = some day) (h : IsUpTo day reports) : IsLatest reports r
  | undated (h : ∀ b ∈ reports, b.day? = none) (hlast : reports.getLast? = some r) : IsLatest reports r

/-- A report is the first that bears the latest day. -/
inductive Leads (reports : List StatusReport) (r : StatusReport) (day : Int) : Prop
  | intro (before after : List StatusReport) (heq : reports = before ++ r :: after) (hday : r.day? = some day)
      (hbefore : IsAfter day before) (hafter : IsUpTo day after) : Leads reports r day

/-- A report is the one that counts. -/
inductive Counts (reports : List StatusReport) (r : StatusReport) : Prop
  | dated {day : Int} (h : Leads reports r day) : Counts reports r
  | undated (h : ∀ b ∈ reports, b.day? = none) (hlast : reports.getLast? = some r) : Counts reports r

/-- A report of the latest day withdraws trust, and another that does not stands before it, the first of that day. -/
def Masked (reports : List StatusReport) : Prop := ∃ before first between r after day,
  reports = before ++ first :: (between ++ r :: after) ∧ first.day? = some day ∧ r.day? = some day ∧
    IsAfter day before ∧ IsUpTo day (between ++ r :: after) ∧ first.withdraws = false ∧ r.withdraws = true

theorem isAfter_nil : IsAfter day [] := nofun

theorem isUpTo_nil : IsUpTo day [] := nofun

theorem isAfter_cons_iff : IsAfter day (r :: reports) ↔ (∀ d, r.day? = some d → d < day) ∧ IsAfter day reports :=
  List.forall_mem_cons

theorem isUpTo_cons_iff : IsUpTo day (r :: reports) ↔ (∀ d, r.day? = some d → d ≤ day) ∧ IsUpTo day reports :=
  List.forall_mem_cons

theorem isUpTo_append_iff : IsUpTo day (reports ++ reports') ↔ IsUpTo day reports ∧ IsUpTo day reports' :=
  List.forall_mem_append

theorem IsAfter.isUpTo (h : IsAfter day reports) : IsUpTo day reports :=
  fun b hb d hd => Int.le_of_lt (h b hb d hd)

/-! ## The first of the latest day -/

namespace Leads

theorem day_eq (h : Leads reports r day) : r.day? = some day := by
  cases h with
  | intro before after heq hday hbefore hafter => exact hday

theorem mem (h : Leads reports r day) : r ∈ reports := by
  cases h with
  | intro before after heq hday hbefore hafter => exact heq ▸ List.mem_append_right _ List.mem_cons_self

theorem isUpTo (h : Leads reports r day) : IsUpTo day reports := by
  cases h with
  | intro before after heq hday hbefore hafter =>
    have hr : ∀ d, r.day? = some d → d ≤ day := fun d hd => Int.le_of_eq (Option.some.inj (hd.symm.trans hday))
    rw [heq]
    exact isUpTo_append_iff.2 ⟨hbefore.isUpTo, isUpTo_cons_iff.2 ⟨hr, hafter⟩⟩

theorem isLatest (h : Leads reports r day) : IsLatest reports r := .dated h.mem h.day_eq h.isUpTo

theorem unique (h : Leads reports r day) (h' : Leads reports r' day') : r = r' := by
  have hle : day' ≤ day := h.isUpTo _ h'.mem _ h'.day_eq
  have hge : day ≤ day' := h'.isUpTo _ h.mem _ h.day_eq
  cases h with
  | intro before after heq hday hbefore hafter =>
  cases h' with
  | intro before' after' heq' hday' hbefore' hafter' =>
    obtain ⟨between, hb, hc⟩ | ⟨between, hb, hc⟩ := List.append_eq_append_iff.1 (heq.symm.trans heq')
    · cases between with
      | nil => exact (List.cons.inj hc).1
      | cons b between =>
        obtain ⟨rfl, -⟩ := List.cons.inj hc
        have hr : r ∈ _ := hb ▸ List.mem_append_right _ List.mem_cons_self
        have hlt : day < day' := hbefore' _ hr _ hday
        omega
    · cases between with
      | nil => exact (List.cons.inj hc).1.symm
      | cons b between =>
        obtain ⟨rfl, -⟩ := List.cons.inj hc
        have hr : r' ∈ _ := hb ▸ List.mem_append_right _ List.mem_cons_self
        have hlt : day' < day := hbefore _ hr _ hday'
        omega

theorem cons_lt (h : Leads (r' :: reports) r day) (hday' : r'.day? = some day')
    (hbest : ∀ d, best.day? = some d → d < day') : Leads (best :: r' :: reports) r day := by
  have hle : day' ≤ day := h.isUpTo _ List.mem_cons_self _ hday'
  cases h with
  | intro before after heq hday hbefore hafter =>
    refine .intro (best :: before) after (by rw [heq, List.cons_append]) hday ?_ hafter
    refine isAfter_cons_iff.2 ⟨fun d hd => ?_, hbefore⟩
    have hlt := hbest d hd
    omega

theorem insert (h : Leads (best :: reports) r day) (hbest : best.day? = some day')
    (hr' : ∀ d, r'.day? = some d → d ≤ day') : Leads (best :: r' :: reports) r day := by
  have hle : day' ≤ day := h.isUpTo _ List.mem_cons_self _ hbest
  cases h with
  | intro before after heq hday hbefore hafter =>
    cases before with
    | nil =>
      obtain ⟨rfl, rfl⟩ := List.cons.inj heq
      refine .intro [] (r' :: reports) rfl hday isAfter_nil (isUpTo_cons_iff.2 ⟨fun d hd => ?_, hafter⟩)
      have hd := hr' d hd
      omega
    | cons b before =>
      obtain ⟨rfl, rfl⟩ := List.cons.inj heq
      obtain ⟨hb, hbefore⟩ := isAfter_cons_iff.1 hbefore
      refine .intro (best :: r' :: before) after rfl hday (isAfter_cons_iff.2 ⟨hb, ?_⟩) hafter
      refine isAfter_cons_iff.2 ⟨fun d hd => ?_, hbefore⟩
      have hlt := hb _ hbest
      have hd := hr' d hd
      omega

end Leads

theorem day?_eq_some_iff : r.day? = some day ↔ r.effectiveDate = .int day ∧ day ≠ 0 := by
  unfold day?
  split
  · rename_i d hd
    by_cases hz : d = 0
    · simp only [hz, if_true, hd, Value.int.injEq]
      grind
    · simp only [hz, if_false, hd, Value.int.injEq, Option.some.injEq]
      grind
  · rename_i hd
    exact iff_of_false nofun fun h => hd _ h.1

theorem less?_of_days (hbest : best.day? = some day) (hr : r.day? = some day') :
    Value.less? best.effectiveDate r.effectiveDate = some (decide (day < day')) := by
  rw [(day?_eq_some_iff.1 hbest).1, (day?_eq_some_iff.1 hr).1]
  simp [Value.less?, Value.magnitude?, Value.Magnitude.lt]

/-- The report that leads those seen so far is kept until one of a later day comes. -/
theorem leads_latestOf : ∀ {reports : List StatusReport} {best : StatusReport} {day : Int}, best.day? = some day →
    (∀ r ∈ reports, ∃ d, r.day? = some d) → ∃ r d, latestOf best reports = some r ∧ Leads (best :: reports) r d
  | [], best, day, hbest, _ => ⟨best, day, rfl, .intro [] [] rfl hbest isAfter_nil isUpTo_nil⟩
  | r :: reports, best, day, hbest, h => by
    obtain ⟨⟨n, hn⟩, hreports⟩ := List.forall_mem_cons.1 h
    rw [latestOf, less?_of_days hbest hn]
    by_cases hlt : day < n
    · obtain ⟨later, d, hlater, hleads⟩ := leads_latestOf hn hreports
      rw [decide_eq_true hlt]
      refine ⟨later, d, hlater, hleads.cons_lt hn fun m hm => ?_⟩
      cases hbest.symm.trans hm
      exact hlt
    · obtain ⟨same, d, hsame, hleads⟩ := leads_latestOf hbest hreports
      rw [decide_eq_false hlt]
      refine ⟨same, d, hsame, hleads.insert hbest fun m hm => ?_⟩
      cases hn.symm.trans hm
      omega

/-! ## The report that counts -/

theorem Counts.unique (h : Counts reports r) (h' : Counts reports r') : r = r' := by
  cases h with
  | dated h =>
    cases h' with
    | dated h' => exact h.unique h'
    | undated h' hlast' =>
      have hnone := h' _ h.mem
      rw [h.day_eq] at hnone
      cases hnone
  | undated h hlast =>
    cases h' with
    | dated h' =>
      have hnone := h _ h'.mem
      rw [h'.day_eq] at hnone
      cases hnone
    | undated h' hlast' => exact Option.some.inj (hlast.symm.trans hlast')

theorem Counts.isLatest (h : Counts reports r) : IsLatest reports r := by
  cases h with
  | dated h => exact h.isLatest
  | undated h hlast => exact .undated h hlast

/-- Reports without a day may be put between others. -/
theorem Leads.of_filter (h : Leads (reports.filter (·.day?.isSome)) r day) : Leads reports r day := by
  have hfrom : ∀ {xs : List StatusReport} {b d}, b ∈ xs → b.day? = some d → b ∈ xs.filter (·.day?.isSome) := by
    intro xs b d hb hd
    exact List.mem_filter.2 ⟨hb, by rw [hd, Option.isSome_some]⟩
  cases h with
  | intro before after heq hday hbefore hafter =>
    obtain ⟨xs, ys, rfl, rfl, hys⟩ := List.filter_eq_append_iff.1 heq
    obtain ⟨skipped, rest, rfl, hskipped, -, rfl⟩ := List.filter_eq_cons_iff.1 hys
    refine .intro (xs ++ skipped) rest (by rw [List.append_assoc]) hday ?_ fun b hb d hd => ?_
    · refine List.forall_mem_append.2 ⟨fun b hb d hd => hbefore b (hfrom hb hd) d hd, fun b hb d hd => ?_⟩
      exact absurd (Option.isSome_iff_exists.2 ⟨d, hd⟩) (hskipped b hb)
    · exact hafter b (hfrom hb hd) d hd

theorem truthy_eq (h : r.effectiveDate = .null ∨ r.IsDated) : r.effectiveDate.truthy = r.day?.isSome := by
  obtain h | ⟨day, h⟩ := h
  · simp [day?, h, Value.truthy]
  · by_cases hz : day = 0 <;> simp [day?, h, hz, Value.truthy]

theorem counts_latest? (h : ∀ b ∈ r :: reports, b.effectiveDate = .null ∨ b.IsDated) :
    ∃ b, latest? r reports = some b ∧ Counts (r :: reports) b := by
  have hfilter : (r :: reports).filter (·.effectiveDate.truthy) = (r :: reports).filter (·.day?.isSome) :=
    List.filter_congr fun b hb => truthy_eq (h b hb)
  unfold latest?
  rw [hfilter]
  split
  · rename_i hnone
    have hdays := List.filter_eq_nil_iff.1 hnone
    refine ⟨_, rfl, .undated (fun b hb => ?_) (List.getLast?_eq_some_getLast _)⟩
    exact Option.not_isSome_iff_eq_none.1 (hdays b hb)
  · rename_i first rest heq
    have hdays : ∀ b ∈ first :: rest, ∃ d, b.day? = some d := by
      intro b hb
      rw [← heq] at hb
      exact Option.isSome_iff_exists.1 (List.mem_filter.1 hb).2
    obtain ⟨⟨day, hday⟩, hrest⟩ := List.forall_mem_cons.1 hdays
    obtain ⟨b, d, hb, hleads⟩ := leads_latestOf hday hrest
    rw [← heq] at hleads
    exact ⟨b, hb, .dated hleads.of_filter⟩

/-- A latest report other than the one that counts bears the same day and is listed later. -/
theorem Counts.eq_or_after (h : Counts reports r) (h' : IsLatest reports r') : r = r' ∨
    ∃ before between after day, reports = before ++ r :: (between ++ r' :: after) ∧ r.day? = some day ∧
      r'.day? = some day ∧ IsAfter day before ∧ IsUpTo day (between ++ r' :: after) := by
  cases h' with
  | undated h' hlast' => exact .inl (h.unique (.undated h' hlast'))
  | dated hr' hday' hmax =>
    rename_i day'
    cases h with
    | undated h hlast =>
      have hnone := h _ hr'
      rw [hday'] at hnone
      cases hnone
    | dated h =>
      have hle := h.isUpTo _ hr' _ hday'
      have hge := hmax _ h.mem _ h.day_eq
      cases h with
      | intro before after heq hday hbefore hafter =>
        rw [heq] at hr'
        obtain hmem | hmem := List.mem_append.1 hr'
        · have hlt := hbefore _ hmem _ hday'
          omega
        · obtain rfl | hmem := List.mem_cons.1 hmem
          · exact .inl rfl
          · obtain ⟨between, rest, rfl⟩ := List.append_of_mem hmem
            obtain rfl := Int.le_antisymm hle hge
            exact .inr ⟨before, between, rest, _, heq, hday, hday', hbefore, hafter⟩

theorem Masked.exists_counts (h : Masked reports) : ∃ r, Counts reports r ∧ r.withdraws = false := by
  obtain ⟨before, first, between, r, after, day, heq, hfirst, -, hbefore, hafter, hkeeps, -⟩ := h
  exact ⟨first, .dated (.intro before _ heq hfirst hbefore hafter), hkeeps⟩

/-- The report that counts leaves trust where no latest one withdraws it, and where one that does is masked. -/
theorem Counts.keeps_iff (h : Counts reports r) :
    r.withdraws = false ↔ (∀ b, IsLatest reports b → b.withdraws = false) ∨ Masked reports := by
  constructor
  · intro hkeeps
    by_cases hall : ∀ b, IsLatest reports b → b.withdraws = false
    · exact .inl hall
    · obtain ⟨b, hnot⟩ := Classical.not_forall.1 hall
      obtain ⟨hb, hwithdraws⟩ := Classical.not_imp.1 hnot
      rw [Bool.not_eq_false] at hwithdraws
      obtain rfl | ⟨before, between, after, day, heq, hr, hday, hbefore, hafter⟩ := h.eq_or_after hb
      · rw [hkeeps] at hwithdraws
        cases hwithdraws
      · exact .inr ⟨before, r, between, b, after, day, heq, hr, hday, hbefore, hafter, hkeeps, hwithdraws⟩
  · rintro (hall | hmasked)
    · exact hall r h.isLatest
    · obtain ⟨first, hfirst, hkeeps⟩ := hmasked.exists_counts
      rw [h.unique hfirst]
      exact hkeeps

/-! ## Reports in another order -/

theorem IsUpTo.of_perm (hperm : reports'.Perm reports) (h : IsUpTo day reports) : IsUpTo day reports' :=
  fun b hb => h b (hperm.mem_iff.1 hb)

theorem IsLatest.of_perm (hperm : reports'.Perm reports) (hday : ∃ b ∈ reports', ∃ d, b.day? = some d)
    (h : IsLatest reports' r) : IsLatest reports r := by
  cases h with
  | dated hr hday h => exact .dated (hperm.mem_iff.1 hr) hday (h.of_perm hperm.symm)
  | undated h hlast =>
    obtain ⟨b, hb, d, hd⟩ := hday
    rw [h b hb] at hd
    cases hd

theorem IsLatest.exists_counts (hsome : ∃ b ∈ reports, ∃ d, b.day? = some d) (h : IsLatest reports r) :
    ∃ reports', reports'.Perm reports ∧ Counts reports' r := by
  cases h with
  | dated hr hday h =>
    obtain ⟨before, after, rfl⟩ := List.append_of_mem hr
    have hperm : (r :: (before ++ after)).Perm (before ++ r :: after) := List.perm_middle.symm
    -- It counts where it is listed first.
    have hrest := (isUpTo_cons_iff.1 (h.of_perm hperm)).2
    exact ⟨_, hperm, .dated (.intro [] (before ++ after) rfl hday isAfter_nil hrest)⟩
  | undated h hlast =>
    obtain ⟨b, hb, d, hd⟩ := hsome
    rw [h b hb] at hd
    cases hd

end StatusReport

namespace Entry

open StatusReport (IsLatest Counts Masked)

variable {e : Entry} {reports : List StatusReport}

/-- Every report of an entry has a day for its date, or none. -/
def IsDated (e : Entry) : Prop := ∀ r ∈ e.reports, r.effectiveDate = .null ∨ r.IsDated

def HasDay (e : Entry) : Prop := ∃ r ∈ e.reports, ∃ d, r.day? = some d

theorem IsDated.of_perm (h : e.IsDated) (hperm : reports.Perm e.reports) : IsDated { e with reports := reports } :=
  fun r hr => h r (hperm.mem_iff.1 hr)

theorem HasDay.of_perm (h : e.HasDay) (hperm : reports.Perm e.reports) : ∃ r ∈ reports, ∃ d, r.day? = some d := by
  obtain ⟨r, hr, hday⟩ := h
  exact ⟨r, hperm.mem_iff.2 hr, hday⟩

theorem IsDated.cases (h : e.IsDated) : e.reports = [] ∧ e.isTrusted? = .ok true ∨
    ∃ r, Counts e.reports r ∧ e.isTrusted? = .ok (!r.withdraws) := by
  unfold isTrusted?
  unfold IsDated at h
  cases hreports : e.reports with
  | nil => exact .inl ⟨rfl, rfl⟩
  | cons r rest =>
    rw [hreports] at h
    obtain ⟨latest, hlatest, hcounts⟩ := StatusReport.counts_latest? h
    exact .inr ⟨latest, hcounts, by simp only [hlatest]⟩

theorem IsDated.isTrusted?_of_counts {r : StatusReport} (h : e.IsDated) (hr : Counts e.reports r) :
    e.isTrusted? = .ok (!r.withdraws) := by
  obtain ⟨hnil, -⟩ | ⟨r', hr', htrusted⟩ := h.cases
  · have hlatest := hr.isLatest
    rw [hnil] at hlatest
    cases hlatest with
    | dated hmem hday h => cases hmem
    | undated h hlast => cases hlast
  · rw [htrusted, hr'.unique hr]

theorem isTrusted?_of_nil (h : e.reports = []) : e.isTrusted? = .ok true := by
  unfold isTrusted?
  rw [h]

theorem IsDated.exists_isTrusted? (h : e.IsDated) : ∃ b, e.isTrusted? = .ok b := by
  obtain ⟨-, htrusted⟩ | ⟨r, -, htrusted⟩ := h.cases
  · exact ⟨true, htrusted⟩
  · exact ⟨!r.withdraws, htrusted⟩

theorem Settled.exists_isTrusted? (h : e.Settled) : ∃ b, e.isTrusted? = .ok b := IsDated.exists_isTrusted? h.dates

theorem IsDated.trusted_iff_counts (h : e.IsDated) :
    e.isTrusted? = .ok true ↔ e.reports = [] ∨ ∃ r, Counts e.reports r ∧ r.withdraws = false := by
  constructor
  · intro htrusted
    obtain ⟨hnil, -⟩ | ⟨r, hr, hverdict⟩ := h.cases
    · exact .inl hnil
    · refine .inr ⟨r, hr, ?_⟩
      rw [hverdict] at htrusted
      simpa using htrusted
  · rintro (hnil | ⟨r, hr, hkeeps⟩)
    · exact isTrusted?_of_nil hnil
    · rw [h.isTrusted?_of_counts hr, hkeeps, Bool.not_false]

theorem IsDated.trusted_iff_latest (h : e.IsDated) :
    e.isTrusted? = .ok true ↔ (∀ r, IsLatest e.reports r → r.withdraws = false) ∨ Masked e.reports := by
  obtain ⟨hnil, htrusted⟩ | ⟨r, hr, hverdict⟩ := h.cases
  · refine iff_of_true htrusted (.inl fun r hr => ?_)
    rw [hnil] at hr
    cases hr with
    | dated hmem hday h => cases hmem
    | undated h hlast => cases hlast
  · rw [← hr.keeps_iff, hverdict]
    simp

/-- An entry some report of which bears a day is trusted in every order of its reports, if no latest one withdraws
trust. -/
theorem IsDated.trusted_perm_iff (h : e.IsDated) (hday : e.HasDay) :
    (∀ reports, reports.Perm e.reports → isTrusted? { e with reports := reports } = .ok true) ↔
      ∀ r, IsLatest e.reports r → r.withdraws = false := by
  constructor
  · intro hall r hr
    obtain ⟨reports, hperm, hcounts⟩ := hr.exists_counts hday
    have hverdict := (h.of_perm hperm).isTrusted?_of_counts hcounts
    rw [hall reports hperm] at hverdict
    simpa using hverdict.symm
  · intro hall reports hperm
    refine (h.of_perm hperm).trusted_iff_latest.2 (.inl fun r hr => hall r ?_)
    exact hr.of_perm hperm (hday.of_perm hperm)

theorem IsDated.verdict_perm_iff (h : e.IsDated) (hday : e.HasDay) :
    (∀ reports, reports.Perm e.reports → isTrusted? { e with reports := reports } = e.isTrusted?) ↔
      ∀ r r', IsLatest e.reports r → IsLatest e.reports r' → r.withdraws = r'.withdraws := by
  have heach : ∀ reports, reports.Perm e.reports → ∃ r, IsLatest e.reports r ∧
      isTrusted? { e with reports := reports } = .ok (!r.withdraws) := by
    intro reports hperm
    obtain ⟨hnil, -⟩ | ⟨r, hr, hverdict⟩ := (h.of_perm hperm).cases
    · obtain ⟨r, hr, -⟩ := hday.of_perm hperm
      exact absurd hr (List.eq_nil_iff_forall_not_mem.1 hnil r)
    · exact ⟨r, hr.isLatest.of_perm hperm (hday.of_perm hperm), hverdict⟩
  constructor
  · intro hall
    have hverdict : ∀ r, IsLatest e.reports r → e.isTrusted? = .ok (!r.withdraws) := by
      intro r hr
      obtain ⟨reports, hperm, hcounts⟩ := hr.exists_counts hday
      rw [← hall reports hperm]
      exact (h.of_perm hperm).isTrusted?_of_counts hcounts
    intro r r' hr hr'
    have heq := (hverdict r hr).symm.trans (hverdict r' hr')
    simpa using heq
  · intro hall reports hperm
    obtain ⟨r, hr, hverdict⟩ := heach reports hperm
    obtain ⟨r', hr', hverdict'⟩ := heach e.reports (.refl _)
    rw [hverdict, hverdict', hall r r' hr hr']

end Entry
end Metadata

/-! ## Lookups -/

namespace Repository

open Metadata (Entry)

variable {q : Query} {filtered : Bool} {url : String} {e : Entry}

theorem ofEntries_append_congr {xs ys : List Entry} (h : ofEntries q filtered url xs = ofEntries q filtered url ys) :
    ∀ es : List Entry, ofEntries q filtered url (es ++ xs) = ofEntries q filtered url (es ++ ys)
  | [] => h
  | e :: es => by
    rw [List.cons_append, List.cons_append, ofEntries, ofEntries, ofEntries_append_congr h es]

theorem ofSources_append_congr {xs ys : List BlobSource} (h : ofSources q filtered xs = ofSources q filtered ys) :
    ∀ sources : List BlobSource, ofSources q filtered (sources ++ xs) = ofSources q filtered (sources ++ ys)
  | [] => h
  | source :: sources => by
    rw [List.cons_append, List.cons_append, ofSources, ofSources, ofSources_append_congr h sources]

theorem ofEntries_of_untrusted (h : e.isTrusted? = .ok false) (es : List Entry) :
    ofEntries q true url (e :: es) = ofEntries q true url es := by
  have hnone : ofEntries q true url (e :: es) = (ofEntries q true url es >>= fun rest => pure ([] ++ rest)) := by
    rw [ofEntries, if_pos rfl, h]
    rfl
  rw [hnone]
  exact bind_pure _

/-- An entry that is trusted is looked up in as if it had no reports. -/
theorem ofEntries_of_trusted (h : e.isTrusted? = .ok true) (es : List Entry) :
    ofEntries q true url (e :: es) = ofEntries q true url ({ e with reports := [] } :: es) := by
  rw [ofEntries, ofEntries, h]
  rfl

theorem find_blobs_congr {xs ys : List Entry} (h : ofEntries q true url xs = ofEntries q true url ys)
    (before after : List BlobSource) (es : List Entry) :
    find q (.blobs (before ++ ⟨url, some (es ++ xs)⟩ :: after) true) =
      find q (.blobs (before ++ ⟨url, some (es ++ ys)⟩ :: after) true) := by
  have hsource : ofSources q true (⟨url, some (es ++ xs)⟩ :: after) =
      ofSources q true (⟨url, some (es ++ ys)⟩ :: after) := by
    simp only [ofSources, ofEntries_append_congr h es]
  rw [find, find, ofSources_append_congr hsource before]

end Repository

namespace Metadata.Entry

open StatusReport (IsLatest Counts Masked)

/-- **An entry is trusted where no latest report withdraws trust, and where one that does is masked** by an earlier one
of the same day.  One report counts, the first of those that bear the latest day, and so the order of the reports settles
the verdict where latest reports are at odds; an entry that is trusted in every order has no latest report that withdraws
trust.  A lookup has nothing from an entry that is not trusted, and has from one that is what it would have without
reports. -/
theorem trusted_iff_latest_or_masked (e : Entry) (h : e.IsDated) :
    (∃ b, e.isTrusted? = .ok b) ∧
    (e.isTrusted? = .ok true ↔ e.reports = [] ∨ ∃ r, Counts e.reports r ∧ r.withdraws = false) ∧
    (e.isTrusted? = .ok true ↔ (∀ r, IsLatest e.reports r → r.withdraws = false) ∨ Masked e.reports) ∧
    (e.HasDay →
      ((∀ reports, reports.Perm e.reports → isTrusted? { e with reports := reports } = .ok true) ↔
        ∀ r, IsLatest e.reports r → r.withdraws = false) ∧
      ((∀ reports, reports.Perm e.reports → isTrusted? { e with reports := reports } = e.isTrusted?) ↔
        ∀ r r', IsLatest e.reports r → IsLatest e.reports r' → r.withdraws = r'.withdraws)) ∧
    ∀ (q : Query) (before after : List BlobSource) (url : String) (es es' : List Entry),
      (e.isTrusted? = .ok false →
        Repository.find q (.blobs (before ++ ⟨url, some (es ++ e :: es')⟩ :: after) true) =
          Repository.find q (.blobs (before ++ ⟨url, some (es ++ es')⟩ :: after) true)) ∧
      (e.isTrusted? = .ok true →
        Repository.find q (.blobs (before ++ ⟨url, some (es ++ e :: es')⟩ :: after) true) =
          Repository.find q (.blobs (before ++ ⟨url, some (es ++ { e with reports := [] } :: es')⟩ :: after) true)) := by
  refine ⟨h.exists_isTrusted?, h.trusted_iff_counts, h.trusted_iff_latest, fun hday => ?_, ?_⟩
  · exact ⟨h.trusted_perm_iff hday, h.verdict_perm_iff hday⟩
  · intro q before after url es es'
    refine ⟨fun hout => ?_, fun hin => ?_⟩
    · exact Repository.find_blobs_congr (Repository.ofEntries_of_untrusted hout es') before after es
    · exact Repository.find_blobs_congr (Repository.ofEntries_of_trusted hin es') before after es

/-- A model that is certified and revoked on one day. -/
def revokedLater : Entry where
  aaguid := .null
  keyIdentifiers := .null
  reports := [⟨some "FIDO_CERTIFIED", .int 738000⟩, ⟨some "REVOKED", .int 738000⟩]
  statement := none

theorem trusted_of_masked_revocation : revokedLater.IsDated ∧ revokedLater.HasDay ∧ Masked revokedLater.reports ∧
    revokedLater.isTrusted? = .ok true ∧
    ¬ ∀ reports, reports.Perm revokedLater.reports → isTrusted? { revokedLater with reports := reports } = .ok true := by
  have hdated : revokedLater.IsDated := by
    intro r hr
    simp only [revokedLater, List.mem_cons, List.not_mem_nil, or_false] at hr
    obtain rfl | rfl := hr <;> exact .inr ⟨_, rfl⟩
  have hday : revokedLater.HasDay := ⟨_, List.mem_cons_self, 738000, rfl⟩
  have hmasked : Masked revokedLater.reports := by
    refine ⟨[], _, [], _, [], 738000, rfl, rfl, rfl, StatusReport.isAfter_nil, ?_, by decide, by decide⟩
    rintro b hb d hd
    obtain rfl := List.mem_singleton.1 hb
    cases hd
    exact Int.le_refl _
  obtain ⟨-, -, hverdict, horder, -⟩ := trusted_iff_latest_or_masked revokedLater hdated
  refine ⟨hdated, hday, hmasked, hverdict.2 (.inr hmasked), fun hall => ?_⟩
  have hlatest : IsLatest revokedLater.reports ⟨some "REVOKED", .int 738000⟩ := by
    have hrevoked : StatusReport.day? ⟨some "REVOKED", .int 738000⟩ = some 738000 := rfl
    refine .dated (List.mem_cons_of_mem _ List.mem_cons_self) hrevoked ?_
    rintro b hb d hd
    simp only [revokedLater, List.mem_cons, List.not_mem_nil, or_false] at hb
    obtain rfl | rfl := hb <;> (cases hd; exact Int.le_refl _)
  have hkeeps := (horder hday).1.1 hall _ hlatest
  revert hkeeps
  decide

end Metadata.Entry
end AttestationTrust
