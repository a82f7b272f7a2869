import AttestationTrust.Download
import Mathlib.Data.List.Infix
/-!
# What a download comes to

A download asks over one store after another, and goes on to the next one only behind a failure that a request passes on
and that says that the certificate of the server did not verify (`Outcome.retries_iff`).  What it comes to is what its
last request comes to (`ends_fetch`), whichever way it ends (`Ends`).
-/
namespace AttestationTrust

theorem Text.occursIn_iff {part : List Char} : ∀ {whole : List Char}, occursIn part whole = true ↔ part <:+: whole
  | [] => by simp [occursIn]
  | c :: cs => by
    rw [occursIn, Bool.or_eq_true, List.isPrefixOf_iff_prefix, occursIn_iff, List.infix_cons_iff]

namespace Download

/-! ## What a request comes to -/

namespace Trouble

/-- The certificate of the server did not verify: trouble of that kind, or trouble of the secure layer that says so. -/
inductive FailsVerification : Trouble → Prop
  | certificate (details : List Value) (reason : Option String) : FailsVerification (plain .unverified details reason)
  | worded {details : List Value} {reason : Option String} (h : saysUnverified
      (allWords (Reading.ofDetails .tls details).listed reason (plainText .tls details)) = true) :
      FailsVerification (plain .tls details reason)

theorem saysUnverified_append {s : String} (h : saysUnverified s = true) (before after : String) :
    saysUnverified (before ++ s ++ after) = true := by
  unfold saysUnverified at *
  rw [Text.occursIn_iff] at *
  rw [String.toList_append, String.toList_append, List.map_append, List.map_append]
  exact h.trans (List.infix_append _ _ _)

theorem FailsVerification.isUnverified {t : Trouble} (h : t.FailsVerification) : t.isUnverified = true := by
  cases h with
  | certificate details reason => rfl
  | worded h => exact h

theorem fails_or_says_of_isUnverified {t : Trouble} (h : t.isUnverified = true) :
    t.FailsVerification ∨ saysUnverified t.text = true := by
  cases t with
  | openText reason => exact .inr h
  | openTrouble t => exact .inr h
  | plain kind details reason =>
    cases kind with
    | unverified => exact .inl (.certificate details reason)
    | tls => exact .inl (.worded h)
    | timeout => exact .inr h
    | file => exact .inr h
    | value => exact .inr h

end Trouble

namespace Outcome

/-- What a request comes to when it is the last one. -/
def result (url : String) (o : Outcome) : Except Failure Bytes :=
  match step url o with
  | .done bs => .ok bs
  | .failed f => .error f
  | .retry reason => .error (.download (.unverifiedServer url reason))

/-- Behind this outcome the next store is tried. -/
def Retries (url : String) (o : Outcome) : Prop := ∃ reason, step url o = .retry reason

/-- The certificate of the server did not verify, and the request raises that itself or passes it on as a reason. -/
inductive FailsVerification : Outcome → Prop
  | raised {t : Trouble} (h : t.FailsVerification) : FailsVerification (trouble t)
  | carried {t : Trouble} (h : t.FailsVerification) : FailsVerification (trouble (.openTrouble t))

/-- A failure to open the location has a text that says that the certificate did not verify. -/
inductive SaysUnverified : Outcome → Prop
  | reason {s : String} (h : Trouble.saysUnverified (Trouble.openText s).text = true) :
      SaysUnverified (trouble (.openText s))
  | cause {t : Trouble} (h : Trouble.saysUnverified (Trouble.openTrouble t).text = true) :
      SaysUnverified (trouble (.openTrouble t))

/-- The trouble with the certificate comes from the request itself, in no failure to open the location. -/
def RaisesUnverified (o : Outcome) : Prop := ∃ t, o = trouble t ∧ t.FailsVerification

/-- The value that a request was made of does not fit. -/
def IsMisfit (o : Outcome) : Prop := ∃ details reason, o = trouble (.plain .value details reason)

/-- The status that an answer bears, or the code in its place. -/
def statusOf (status code : Option Int) : Option Int := if status.getD 0 = 0 then code else status

end Outcome

theorem step_answer (url : String) (status code : Option Int) (body : Bytes) : step url (.answer status code body) =
    if Outcome.statusOf status code = some 200 then .done body
    else .failed (.download (.badStatus url (Outcome.statusOf status code))) := by
  cases status with
  | none => rfl
  | some n =>
    by_cases hn : n = 0
    · subst hn
      rfl
    · simp [step, Outcome.statusOf, hn]

theorem openStep_cases (url retryText reason : String) (isUnverified : Bool) :
    (isUnverified = true ∧ openStep url isUnverified retryText reason = .retry retryText) ∨
    (isUnverified = false ∧ openStep url isUnverified retryText reason =
      .failed (.download (.unreachable url (some reason)))) := by
  cases isUnverified
  · exact .inr ⟨rfl, rfl⟩
  · exact .inl ⟨rfl, rfl⟩

namespace Outcome

variable {url : String}

/-- A request is answered well, made of a value that does not fit, failed for good, or followed by another one. -/
theorem step_cases (url : String) (o : Outcome) :
    (∃ status code bs, o = answer status code bs ∧ statusOf status code = some 200 ∧ step url o = .done bs) ∨
    (o.IsMisfit ∧ ∃ f, step url o = .failed (.value f)) ∨
    ¬ o.IsMisfit ∧
      ((∃ f, step url o = .failed (.download f) ∧ ∀ words, f ≠ .unverifiedServer url words) ∨ o.Retries url) := by
  cases o with
  | answer status code bs =>
    rw [Retries, step_answer]
    by_cases h : statusOf status code = some 200
    · exact .inl ⟨status, code, bs, rfl, h, if_pos h⟩
    · exact .inr (.inr ⟨nofun, .inl ⟨_, if_neg h, nofun⟩⟩)
  | httpError status headers => exact .inr (.inr ⟨nofun, .inl ⟨_, rfl, nofun⟩⟩)
  | trouble t =>
    cases t with
    | plain kind details reason =>
      cases kind with
      | value => exact .inr (.inl ⟨⟨details, reason, rfl⟩, _, rfl⟩)
      | unverified => exact .inr (.inr ⟨nofun, .inl ⟨_, rfl, nofun⟩⟩)
      | tls => exact .inr (.inr ⟨nofun, .inl ⟨_, rfl, nofun⟩⟩)
      | timeout => exact .inr (.inr ⟨nofun, .inl ⟨_, rfl, nofun⟩⟩)
      | file => exact .inr (.inr ⟨nofun, .inl ⟨_, rfl, nofun⟩⟩)
    | openText reason =>
      refine .inr (.inr ⟨nofun, ?_⟩)
      obtain ⟨-, h⟩ | ⟨-, h⟩ := openStep_cases url (Trouble.openText reason).text reason
        (Trouble.saysUnverified (Trouble.openText reason).text)
      · exact .inr ⟨_, h⟩
      · exact .inl ⟨_, h, nofun⟩
    | openTrouble t =>
      refine .inr (.inr ⟨nofun, ?_⟩)
      rw [Retries, step]
      split
      · exact .inr ⟨_, rfl⟩
      · obtain ⟨-, h⟩ | ⟨-, h⟩ := openStep_cases url (Trouble.openTrouble t).text t.text
          (Trouble.saysUnverified (Trouble.openTrouble t).text)
        · exact .inr ⟨_, h⟩
        · exact .inl ⟨_, h, nofun⟩

/-- The next store is tried behind trouble with the certificate that is passed on, and behind a failure to open the
location whose own text says so. -/
theorem retries_iff {o : Outcome} : o.Retries url ↔
    (∃ t, o = trouble (.openTrouble t) ∧ t.FailsVerification) ∨ o.SaysUnverified := by
  constructor
  · rintro ⟨r, h⟩
    cases o with
    | answer status code body =>
      rw [step_answer] at h
      split at h <;> cases h
    | httpError status headers => cases h
    | trouble t =>
      cases t with
      | plain kind details reason => cases kind <;> cases h
      | openText reason =>
        obtain ⟨hworded, -⟩ | ⟨-, hfailed⟩ := openStep_cases url (Trouble.openText reason).text reason
          (Trouble.saysUnverified (Trouble.openText reason).text)
        · exact .inr (.reason hworded)
        · cases hfailed.symm.trans h
      | openTrouble t =>
        rw [step] at h
        split at h
        · rename_i hunverified
          obtain hfails | hworded := Trouble.fails_or_says_of_isUnverified hunverified
          · exact .inl ⟨t, rfl, hfails⟩
          · -- the text of the failure to open holds that of its reason
            exact .inr (.cause (Trouble.saysUnverified_append hworded "<urlopen error " ">"))
        · obtain ⟨hworded, -⟩ | ⟨-, hfailed⟩ := openStep_cases url (Trouble.openTrouble t).text t.text
            (Trouble.saysUnverified (Trouble.openTrouble t).text)
          · exact .inr (.cause hworded)
          · cases hfailed.symm.trans h
  · rintro (⟨t, rfl, h⟩ | h)
    · exact ⟨t.text, by rw [step, if_pos h.isUnverified]⟩
    · cases h with
      | @reason s h => exact ⟨_, by rw [step, h]; rfl⟩
      | @cause t h =>
        rw [Retries, step]
        split
        · exact ⟨_, rfl⟩
        · dsimp only
          exact ⟨_, by rw [h]; rfl⟩

/-- What a request comes to is a body, a failure of a value that does not fit, or a failure of the download, which says
that the server was not verified exactly where another request can follow. -/
theorem result_cases (url : String) (o : Outcome) :
    (∃ status code bs, o = answer status code bs ∧ statusOf status code = some 200 ∧ o.result url = .ok bs) ∨
    (o.IsMisfit ∧ ∃ f, o.result url = .error (.value f)) ∨
    ¬ o.IsMisfit ∧ ∃ f, o.result url = .error (.download f) ∧
      ((∃ words, f = .unverifiedServer url words) ↔ o.Retries url) := by
  unfold result
  obtain ⟨status, code, bs, ho, hstatus, h⟩ | ⟨hmisfit, f, h⟩ | ⟨hmisfit, ⟨f, h, hf⟩ | ⟨words, h⟩⟩ := step_cases url o
  · exact .inl ⟨status, code, bs, ho, hstatus, by rw [h]⟩
  · exact .inr (.inl ⟨hmisfit, f, by rw [h]⟩)
  · refine .inr (.inr ⟨hmisfit, f, by rw [h], iff_of_false (fun ⟨words, hwords⟩ => hf words hwords) ?_⟩)
    rintro ⟨words, hretry⟩
    cases h.symm.trans hretry
  · exact .inr (.inr ⟨hmisfit, _, by rw [h], iff_of_true ⟨words, rfl⟩ ⟨words, h⟩⟩)

theorem result_eq_ok_iff {o : Outcome} {bs : Bytes} :
    o.result url = .ok bs ↔ ∃ status code, o = answer status code bs ∧ statusOf status code = some 200 := by
  constructor
  · intro h
    obtain ⟨status, code, bs', rfl, hstatus, hresult⟩ | ⟨-, f, hresult⟩ | ⟨-, f, hresult, -⟩ := result_cases url o
    · cases hresult.symm.trans h
      exact ⟨status, code, rfl, hstatus⟩
    · cases hresult.symm.trans h
    · cases hresult.symm.trans h
  · rintro ⟨status, code, rfl, hstatus⟩
    rw [result, step_answer, if_pos hstatus]

theorem result_eq_error_cases {o : Outcome} {f : Failure} (h : o.result url = .error f) :
    (o.IsMisfit ∧ ∃ g, f = .value g) ∨ ¬ o.IsMisfit ∧ ∃ g, f = .download g := by
  obtain ⟨status, code, bs, -, -, hresult⟩ | ⟨hmisfit, g, hresult⟩ | ⟨hmisfit, g, hresult, -⟩ := result_cases url o
  · cases hresult.symm.trans h
  · cases hresult.symm.trans h
    exact .inl ⟨hmisfit, g, rfl⟩
  · cases hresult.symm.trans h
    exact .inr ⟨hmisfit, g, rfl⟩

theorem result_unverified_iff {o : Outcome} :
    (∃ words, o.result url = .error (.download (.unverifiedServer url words))) ↔ o.Retries url := by
  constructor
  · rintro ⟨words, h⟩
    obtain ⟨status, code, bs, -, -, hresult⟩ | ⟨-, g, hresult⟩ | ⟨-, g, hresult, hretries⟩ := result_cases url o
    · cases hresult.symm.trans h
    · cases hresult.symm.trans h
    · cases hresult.symm.trans h
      exact hretries.1 ⟨words, rfl⟩
  · rintro ⟨words, h⟩
    exact ⟨words, by rw [result, h]⟩

end Outcome

/-! ## What the requests come to -/

/-- The outcome of each request in a row; the last one that is given repeats. -/
def outcomeAt : Outcome → List Outcome → Nat → Outcome
  | o, _, 0 => o
  | o, os, n + 1 => outcomeAt (os.headD o) os.tail n

/-- The stores that can be opened, in the order in which they are used. -/
def available (system bundled : Option StoreFault) : List Store :=
  (if system = none then [.system] else []) ++ if bundled = none then [.bundled] else []

/-- The stores that are asked, each behind an outcome of which the next is tried, and what comes of it. -/
inductive Settles (url : String) (ask : Store → Request) (outcome : Nat → Outcome) (stores : List Store) :
    Except Failure Bytes × List Request → Prop
  | intro {tried left : List Store} {last : Store} (hstores : stores = tried ++ last :: left)
      (htried : ∀ n < tried.length, (outcome n).Retries url)
      (hlast : left = [] ∨ ¬ (outcome tried.length).Retries url) :
      Settles url ask outcome stores ((outcome tried.length).result url, (tried ++ [last]).map ask)

theorem Settles.last {url : String} {ask : Store → Request} {outcome : Nat → Outcome} {store : Store}
    {stores : List Store} (h : stores = [] ∨ ¬ (outcome 0).Retries url) :
    Settles url ask outcome (store :: stores) ((outcome 0).result url, [ask store]) :=
  @intro url ask outcome (store :: stores) [] stores store rfl nofun h

theorem Settles.cons {url : String} {ask : Store → Request} {outcome : Nat → Outcome} {stores : List Store}
    {x : Except Failure Bytes × List Request} (h : Settles url ask (fun n => outcome (n + 1)) stores x)
    (hfirst : (outcome 0).Retries url) (store : Store) :
    Settles url ask outcome (store :: stores) (x.1, ask store :: x.2) := by
  cases h with
  | @intro tried left last hstores htried hlast =>
    subst hstores
    refine @intro url ask outcome _ (store :: tried) left last rfl (fun n hn => ?_) hlast
    cases n with
    | zero => exact hfirst
    | succ n => exact htried n (Nat.lt_of_succ_lt_succ hn)

section

variable {url : String} {ask : Store → Request} {reason : Option String} {store : Store} {stores : List Store}
  {first : Outcome} {later : List Outcome}

theorem runAll_of_not_retries (h : ¬ first.Retries url) :
    runAll url ask reason (store :: stores) (first :: later) = (first.result url, [ask store]) := by
  rw [runAll, Outcome.result]
  cases hstep : step url first with
  | done bs => rfl
  | failed f => rfl
  | retry r => exact absurd ⟨r, hstep⟩ h

theorem runAll_of_retry {r : String} (h : step url first = .retry r) :
    runAll url ask reason (store :: stores) (first :: later) =
      ((runAll url ask (some r) stores (later.headD first :: later.tail)).1,
        ask store :: (runAll url ask (some r) stores (later.headD first :: later.tail)).2) := by
  rw [runAll, h]
  cases later <;> rfl

end

theorem settles_runAll (url : String) (ask : Store → Request) : ∀ (store : Store) (stores : List Store)
    (reason : Option String) (first : Outcome) (later : List Outcome), Settles url ask (outcomeAt first later)
      (store :: stores) (runAll url ask reason (store :: stores) (first :: later))
  | store, stores, reason, first, later => by
    by_cases hretries : first.Retries url
    · obtain ⟨r, hstep⟩ := hretries
      rw [runAll_of_retry hstep]
      cases stores with
      | nil =>
        have hresult : first.result url = .error (.download (.unverifiedServer url r)) := by rw [Outcome.result, hstep]
        rw [runAll, ← hresult]
        exact @Settles.last url ask (outcomeAt first later) store [] (.inl rfl)
      | cons next stores =>
        refine @Settles.cons url ask (outcomeAt first later) (next :: stores) _ ?_ ⟨r, hstep⟩ store
        exact settles_runAll url ask next stores (some r) (later.headD first) later.tail
    · rw [runAll_of_not_retries hretries]
      exact @Settles.last url ask (outcomeAt first later) store stores (.inr hretries)

/-! ## The ways in which a download ends -/

/-- Whether a location is one that requests can be made for. -/
def HasScheme (url : String) : Prop := hasScheme (withoutFragment (unwrap url)) = true

theorem target_cases (url : String) :
    (HasScheme url ∧ ∃ t, target url = .ok t) ∨ (¬ HasScheme url ∧ ∃ f, target url = .error (.value f)) := by
  unfold target HasScheme
  dsimp only
  split
  · exact .inl ⟨‹_›, _, rfl⟩
  · exact .inr ⟨‹_›, _, rfl⟩

theorem seconds_error {timeout : Timeout} {f : Failure} (h : timeout.seconds = .error f) : ∃ g, f = .range g := by
  unfold Timeout.seconds at h
  split at h
  · cases h
  · split at h
    · cases h
    · cases h
      exact ⟨_, rfl⟩

theorem openStores_eq {system : Option StoreFault} (h : system ≠ some .file) (bundled : Option StoreFault) :
    ∃ log, openStores system bundled = (.ok (available system bundled), log) := by
  cases system with
  | none => cases bundled <;> exact ⟨_, rfl⟩
  | some fault =>
    cases fault with
    | tls => cases bundled <;> exact ⟨_, rfl⟩
    | file => exact absurd rfl h

/-- What a download comes to that makes no request: the location has no scheme, the store of the system cannot be read,
no store can be opened, or the bound on the time is beyond the floating point numbers. -/
inductive Unasked (url : String) (timeout : Timeout) (system bundled : Option StoreFault) : Except Failure Bytes → Prop
  | noScheme {f : ValueFault} (hurl : ¬ HasScheme url) (htarget : target url = .error (.value f)) :
      Unasked url timeout system bundled (.error (.value f))
  | noStore (hurl : HasScheme url) (hsystem : system = some .file) :
      Unasked url timeout system bundled (.error .unreadable)
  | shut (hurl : HasScheme url) (hsystem : system ≠ some .file) (hstores : available system bundled = []) :
      Unasked url timeout system bundled (.error (.download (.unreachable url none)))
  | beyond {f : RangeFault} (hurl : HasScheme url) (hsystem : system ≠ some .file)
      (hstores : available system bundled ≠ []) (htimeout : timeout.seconds = .error (.range f)) :
      Unasked url timeout system bundled (.error (.range f))

/-- The ways in which a download ends, with what it comes to and the requests that it has made. -/
inductive Ends (url : String) (timeout : Timeout) (system bundled : Option StoreFault) (outcome : Nat → Outcome) :
    Except Failure Bytes → List Request → Prop
  | unasked {result : Except Failure Bytes} (h : Unasked url timeout system bundled result) :
      Ends url timeout system bundled outcome result []
  | asked {t : String} {x : Binary64} {tried left : List Store} {last : Store} (hurl : HasScheme url)
      (htarget : target url = .ok t) (hsystem : system ≠ some .file) (htimeout : timeout.seconds = .ok x)
      (hstores : available system bundled = tried ++ last :: left)
      (htried : ∀ n < tried.length, (outcome n).Retries url)
      (hlast : left = [] ∨ ¬ (outcome tried.length).Retries url) :
      Ends url timeout system bundled outcome ((outcome tried.length).result url)
        ((tried ++ [last]).map fun store => ⟨t, userAgent, timeout, store⟩)

theorem ends_fetch (url : String) (timeout : Timeout) (system bundled : Option StoreFault) (first : Outcome)
    (later : List Outcome) : Ends url timeout system bundled (outcomeAt first later)
      (fetch url timeout system bundled (first :: later)).result
      (fetch url timeout system bundled (first :: later)).requests := by
  unfold fetch
  obtain ⟨hurl, t, htarget⟩ | ⟨hurl, f, htarget⟩ := target_cases url
  · rw [htarget]
    by_cases hsystem : system = some .file
    · subst hsystem
      exact .unasked (.noStore hurl rfl)
    · obtain ⟨log, hopen⟩ := openStores_eq hsystem bundled
      dsimp only
      rw [hopen]
      dsimp only
      unfold run
      cases hstores : available system bundled with
      | nil =>
        cases timeout.seconds <;> exact .unasked (.shut hurl hsystem hstores)
      | cons store stores =>
        cases htimeout : timeout.seconds with
        | error f =>
          obtain ⟨g, rfl⟩ := seconds_error htimeout
          exact .unasked (.beyond hurl hsystem (by simp [hstores]) htimeout)
        | ok x =>
          dsimp only
          generalize hrun : runAll url _ none (store :: stores) (first :: later) = made
          have hsettles :=
            settles_runAll url (fun store => ⟨t, userAgent, timeout, store⟩) store stores none first later
          rw [hrun] at hsettles
          cases hsettles with
          | intro hsplit htried hlast =>
            exact .asked hurl htarget hsystem htimeout (hstores.trans hsplit) htried hlast
  · rw [htarget]
    exact .unasked (.noScheme hurl htarget)

/-- The first of the headers of a name bears a value that is not blank. -/
def Bears (name : String) (headers : List (String × String)) (value : String) : Prop :=
  value ≠ "" ∧ ∃ before word text after, headers = before ++ (word, text) :: after ∧
    (∀ h ∈ before, Text.lower h.1 ≠ Text.lower name) ∧ Text.lower word = Text.lower name ∧ Text.trim text = value

theorem header?_eq_some_iff {name value : String} {headers : List (String × String)} :
    header? name headers = some value ↔ Bears name headers value := by
  unfold header?
  constructor
  · intro h
    split at h
    · rename_i word text hfind
      obtain ⟨hword, before, after, heq, hbefore⟩ := List.find?_eq_some_iff_append.1 hfind
      split at h
      · cases h
      · rename_i hne
        cases h
        exact ⟨hne, before, word, text, after, heq, by simpa using hbefore, by simpa using hword, rfl⟩
    · cases h
  · rintro ⟨hne, before, word, text, after, rfl, hbefore, hword, rfl⟩
    have hfind : (before ++ (word, text) :: after).find? (fun h => Text.lower h.1 == Text.lower name) =
        some (word, text) :=
      List.find?_eq_some_iff_append.2 ⟨by simpa using hword, before, after, rfl, by simpa using hbefore⟩
    rw [hfind]
    exact if_neg hne

namespace Ends

variable {url : String} {timeout : Timeout} {system bundled : Option StoreFault} {outcome : Nat → Outcome}
  {result : Except Failure Bytes} {requests : List Request}

theorem escapes_iff (h : Ends url timeout system bundled outcome result requests) :
    (∃ f, result = .error f ∧ ∀ g, f ≠ .download g) ↔ ¬ HasScheme url ∨ system = some .file ∨
      (available system bundled ≠ [] ∧ ∃ f, timeout.seconds = .error f) ∨
      ∃ n, requests.length = n + 1 ∧ (outcome n).IsMisfit := by
  cases h with
  | unasked h =>
    cases h with
    | noScheme hurl htarget => exact iff_of_true ⟨_, rfl, nofun⟩ (.inl hurl)
    | noStore hurl hsystem => exact iff_of_true ⟨_, rfl, nofun⟩ (.inr (.inl hsystem))
    | shut hurl hsystem hstores =>
      refine iff_of_false (by simp) ?_
      rintro (h | h | ⟨h, -⟩ | ⟨n, h, -⟩)
      · exact h hurl
      · exact hsystem h
      · exact h hstores
      · cases h
    | beyond hurl hsystem hstores htimeout =>
      exact iff_of_true ⟨_, rfl, nofun⟩ (.inr (.inr (.inl ⟨hstores, _, htimeout⟩)))
  | @asked t x tried left last hurl htarget hsystem htimeout hstores htried hlast =>
    rw [List.length_map, List.length_append, List.length_singleton]
    constructor
    · rintro ⟨f, hf, hne⟩
      obtain ⟨hmisfit, -⟩ | ⟨-, g, rfl⟩ := Outcome.result_eq_error_cases hf
      · exact .inr (.inr (.inr ⟨tried.length, rfl, hmisfit⟩))
      · exact absurd rfl (hne g)
    · rintro (h | h | ⟨-, f, h⟩ | ⟨n, hn, hmisfit⟩)
      · exact absurd hurl h
      · exact absurd h hsystem
      · rw [htimeout] at h
        cases h
      · cases hn
        obtain ⟨details, reason, h⟩ := hmisfit
        exact ⟨.value (.reported (Trouble.plainText .value details)), by rw [h]; rfl, nofun⟩

theorem body_iff (h : Ends url timeout system bundled outcome result requests) {body : Bytes} :
    result = .ok body ↔ ∃ n status code, requests.length = n + 1 ∧ outcome n = .answer status code body ∧
      Outcome.statusOf status code = some 200 := by
  cases h with
  | @asked t x tried left last hurl htarget hsystem htimeout hstores htried hlast =>
    rw [List.length_map, List.length_append, List.length_singleton, Outcome.result_eq_ok_iff]
    constructor
    · rintro ⟨status, code, h⟩
      exact ⟨tried.length, status, code, rfl, h⟩
    · rintro ⟨n, status, code, hn, h⟩
      cases hn
      exact ⟨status, code, h⟩
  | unasked h => cases h <;> simp

/-- Where a request has been made, the last one decides; another could follow each one before it, and none can follow
it unless no store is left. -/
theorem exists_last (h : Ends url timeout system bundled outcome result requests) (hasked : 0 < requests.length) :
    ∃ tried left last, available system bundled = tried ++ last :: left ∧ requests.length = tried.length + 1 ∧
      (∀ n < tried.length, (outcome n).Retries url) ∧ (left = [] ∨ ¬ (outcome tried.length).Retries url) ∧
      result = (outcome tried.length).result url := by
  cases h with
  | @asked t x tried left last hurl htarget hsystem htimeout hstores htried hlast =>
    exact ⟨tried, left, last, hstores, by simp, htried, hlast, rfl⟩
  | unasked h => cases hasked

theorem result_eq (h : Ends url timeout system bundled outcome result requests) {n : Nat}
    (hn : requests.length = n + 1) : result = (outcome n).result url := by
  obtain ⟨tried, left, last, hstores, hlength, htried, hlast, hresult⟩ := h.exists_last (by omega)
  obtain rfl : n = tried.length := by omega
  exact hresult

theorem bundled_asked (h : Ends url timeout (some .tls) none outcome result requests) {x : Binary64}
    (hurl : HasScheme url) (htimeout : timeout.seconds = .ok x) :
    requests.map Request.store = [.bundled] ∧ result = (outcome 0).result url := by
  cases h with
  | unasked h =>
    cases h with
    | noScheme h htarget => exact absurd hurl h
    | noStore h hsystem => cases hsystem
    | shut h hsystem hstores => cases hstores
    | beyond h hsystem hstores hbeyond =>
      rw [htimeout] at hbeyond
      cases hbeyond
  | @asked t x tried left last h htarget hsystem htimeout hstores htried hlast =>
    have hstores : [Store.bundled] = tried ++ last :: left := hstores
    cases tried with
    | nil =>
      cases hstores
      exact ⟨rfl, rfl⟩
    | cons store tried => simp at hstores

theorem unasked_of_eq_nil (h : Ends url timeout system bundled outcome result requests) (hnone : requests = []) :
    Unasked url timeout system bundled result := by
  cases h with
  | unasked h => exact h
  | asked => simp at hnone

/-- One request at most goes to each store that can be opened, in their order, and all of them ask for the same. -/
theorem asks_for (h : Ends url timeout system bundled outcome result requests) :
    requests.map Request.store <+: available system bundled ∧
      ∀ q ∈ requests, target url = .ok q.target ∧ q.agent = userAgent ∧ q.timeout = timeout := by
  cases h with
  | @asked t x tried left last hurl htarget hsystem htimeout hstores htried hlast =>
    constructor
    · refine ⟨left, ?_⟩
      rw [List.map_map]
      simp [hstores, Function.comp_def]
    · intro q hq
      obtain ⟨store, -, rfl⟩ := List.mem_map.1 hq
      exact ⟨htarget, rfl, rfl⟩
  | unasked h => exact ⟨List.nil_prefix, nofun⟩

/-- As long as there is a store left, another request follows exactly the outcomes of which the next store is tried. -/
theorem next_iff (h : Ends url timeout system bundled outcome result requests) {n : Nat} (hn : n < requests.length)
    (hstore : n + 1 < (available system bundled).length) : n + 1 < requests.length ↔ (outcome n).Retries url := by
  obtain ⟨tried, left, last, hstores, hlength, htried, hlast, -⟩ := h.exists_last (by omega)
  rw [hlength] at hn ⊢
  rw [hstores, List.length_append, List.length_cons] at hstore
  obtain hn | rfl := Nat.lt_or_eq_of_le (Nat.le_of_lt_succ hn)
  · exact iff_of_true (Nat.succ_lt_succ hn) (htried n hn)
  · refine iff_of_false (Nat.lt_irrefl _) (hlast.resolve_left ?_)
    rintro rfl
    simp at hstore

/-- The failure says that the server was not verified exactly when no store was left and none of them verified it. -/
theorem unverified_iff (h : Ends url timeout system bundled outcome result requests) {n : Nat}
    (hn : requests.length = n + 1) : (∃ words, result = .error (.download (.unverifiedServer url words))) ↔
      n + 1 = (available system bundled).length ∧ ∀ m ≤ n, (outcome m).Retries url := by
  obtain ⟨tried, left, last, hstores, hlength, htried, hlast, rfl⟩ := h.exists_last (by omega)
  obtain rfl : n = tried.length := by omega
  rw [Outcome.result_unverified_iff]
  constructor
  · intro hretries
    obtain rfl := hlast.resolve_right (not_not_intro hretries)
    refine ⟨by rw [hstores, List.length_append, List.length_singleton], fun m hm => ?_⟩
    obtain hm | rfl := Nat.lt_or_eq_of_le hm
    · exact htried m hm
    · exact hretries
  · exact fun hall => hall.2 _ (Nat.le_refl _)

end Ends

/-- **A download is closed under its own failures, but for four ways out.**  It comes to the body of a good answer, to
that of the last request, or fails as a download does, unless the location has no scheme, the store of the system cannot
be read, the bound on the time is beyond the floating point numbers, or a request was made of a value that does not fit.
The status and the delay that a refusal bears stay with the failure, and a store of the system that fails in the secure
layer leaves the other one to be asked. -/
theorem fetch_closed (url : String) (timeout : Timeout) (system bundled : Option StoreFault) (first : Outcome)
    (later : List Outcome) :
    let r := fetch url timeout system bundled (first :: later)
    let outcome := outcomeAt first later
    ((∃ f, r.result = .error f ∧ ∀ g, f ≠ .download g) ↔ ¬ HasScheme url ∨ system = some .file ∨
      (available system bundled ≠ [] ∧ ∃ f, timeout.seconds = .error f) ∨
      ∃ n, r.requests.length = n + 1 ∧ (outcome n).IsMisfit) ∧
    (∀ body, r.result = .ok body ↔ ∃ n status code, r.requests.length = n + 1 ∧ outcome n = .answer status code body ∧
      Outcome.statusOf status code = some 200) ∧
    (∀ n status headers, r.requests.length = n + 1 → outcome n = .httpError status headers →
      ∃ f, r.result = .error (.download f) ∧ f.status = some status ∧
        ∀ v, f.retryAfter = some v ↔ Bears "Retry-After" (headers.getD []) v) ∧
    ∀ x, HasScheme url → system = some .tls → bundled = none → timeout.seconds = .ok x →
      r.used = [.bundled] ∧ r.result = first.result url := by
  intro r outcome
  have hends : Ends url timeout system bundled outcome r.result r.requests :=
    ends_fetch url timeout system bundled first later
  refine ⟨hends.escapes_iff, fun body => hends.body_iff, fun n status headers hn hrefused => ?_, ?_⟩
  · refine ⟨.httpError url status (header? "Retry-After" (headers.getD [])), ?_, rfl, fun v => header?_eq_some_iff⟩
    rw [hends.result_eq hn, hrefused]
    rfl
  · rintro x hurl rfl rfl htimeout
    exact hends.bundled_asked hurl htimeout

/-- A store of the system that cannot be read ends a download, although the other store is there to be asked and the
answer would be good. -/
theorem fetch_stops_at_unreadable_store :
    let r := fetch "https://mds.example.com/blob" (.integer 5) (some .file) none [.answer (some 200) none [111, 107]]
    available (some .file) none = [.bundled] ∧ r.requests = [] ∧ r.result = .error .unreadable := by
  refine ⟨rfl, ?_, ?_⟩
  · decide +kernel
  · rfl

/-! ## Behind which outcome another request follows -/

theorem outcomeAt_mem : ∀ (first : Outcome) (later : List Outcome) (n : Nat), outcomeAt first later n ∈ first :: later
  | first, later, 0 => List.mem_cons_self
  | first, later, n + 1 => by
    have hmem := outcomeAt_mem (later.headD first) later.tail n
    cases later with
    | nil => simpa [outcomeAt] using hmem
    | cons o os => exact List.mem_cons_of_mem _ hmem

theorem Outcome.not_raises_openTrouble (t : Trouble) : ¬ (trouble (.openTrouble t)).RaisesUnverified := by
  rintro ⟨_, h, hfails⟩
  cases h
  cases hfails

theorem Outcome.not_raises_answer (status code : Option Int) (body : Bytes) :
    ¬ (answer status code body).RaisesUnverified := by
  rintro ⟨_, h, -⟩
  cases h

theorem Outcome.retries_iff_fails {url : String} {o : Outcome} (h : ¬ o.RaisesUnverified) :
    o.Retries url ↔ o.FailsVerification ∨ o.SaysUnverified := by
  rw [retries_iff]
  refine or_congr_left ⟨?_, ?_⟩
  · rintro ⟨t, rfl, ht⟩
    exact .carried ht
  · rintro (ht | ht)
    · exact absurd ⟨_, rfl, ht⟩ h
    · exact ⟨_, rfl, ht⟩

/-- **Another request follows a server that was not verified, and nothing else.**  Requests go to the stores that can be
opened, one to each at most and in their order, and all ask for the same.  What comes of the download is what comes of its
last request; a download that makes none fails before it could (`Unasked`).  Where no request raises the trouble with the
certificate itself, another one follows, as long as a store is left, exactly the failures of verification and those
failures to open the location that have a text that says so; and what comes of the download says that the server was not
verified exactly when each of the stores has been asked and none of them verified it. -/
theorem requests_follow_unverified (url : String) (timeout : Timeout) (system bundled : Option StoreFault)
    (first : Outcome) (later : List Outcome) :
    let r := fetch url timeout system bundled (first :: later)
    let outcome := outcomeAt first later
    let Unverified := fun n => (outcome n).FailsVerification ∨ (outcome n).SaysUnverified
    r.requests.map Request.store <+: available system bundled ∧
    (∀ q ∈ r.requests, target url = .ok q.target ∧ q.agent = userAgent ∧ q.timeout = timeout) ∧
    (∀ n, r.requests.length = n + 1 → r.result = (outcome n).result url) ∧
    (r.requests = [] → Unasked url timeout system bundled r.result) ∧
    ((∀ o ∈ first :: later, ¬ o.RaisesUnverified) →
      (∀ n < r.requests.length, n + 1 < (available system bundled).length →
        (n + 1 < r.requests.length ↔ Unverified n)) ∧
      ∀ n, r.requests.length = n + 1 →
        ((∃ words, r.result = .error (.download (.unverifiedServer url words))) ↔
          n + 1 = (available system bundled).length ∧ ∀ m ≤ n, Unverified m)) := by
  intro r outcome Unverified
  have hends : Ends url timeout system bundled outcome r.result r.requests :=
    ends_fetch url timeout system bundled first later
  refine ⟨hends.asks_for.1, hends.asks_for.2, fun n hn => hends.result_eq hn, hends.unasked_of_eq_nil,
    fun hraised => ?_⟩
  have hunverified : ∀ n, (outcome n).Retries url ↔ Unverified n := fun n =>
    Outcome.retries_iff_fails (hraised _ (outcomeAt_mem first later n))
  refine ⟨fun n hn hstore => ?_, fun n hn => ?_⟩
  · rw [hends.next_iff hn hstore, hunverified]
  · rw [hends.unverified_iff hn]
    simp only [hunverified]

/-- A request that passes on that a certificate is self-signed is followed by another one, and that settles it. -/
theorem requests_follow_self_signed :
    let selfSigned := Outcome.trouble (.openTrouble (.plain .unverified [.int 1, .text "self-signed certificate"] none))
    let good := Outcome.answer (some 200) none [98]
    let r := fetch "https://mds.example.com/blob" (.integer 5) none none [selfSigned, good]
    (∀ o ∈ [selfSigned, good], ¬ o.RaisesUnverified) ∧ 1 < r.requests.length ∧ r.result = .ok [98] := by
  intro selfSigned good r
  have hraised : ∀ o ∈ [selfSigned, good], ¬ o.RaisesUnverified :=
    List.forall_mem_cons.2 ⟨Outcome.not_raises_openTrouble _,
      List.forall_mem_singleton.2 (Outcome.not_raises_answer _ _ _)⟩
  obtain ⟨-, -, hlast, -, hfollows⟩ :=
    requests_follow_unverified "https://mds.example.com/blob" (.integer 5) none none selfSigned [good]
  obtain ⟨hnext, -⟩ := hfollows hraised
  refine ⟨hraised, (hnext 0 (by decide +kernel) (by decide)).2 (.inl (.carried (.certificate _ _))), ?_⟩
  exact hlast 1 (by decide +kernel)

/-- Another request follows trouble with a file that is passed on, when the words are in its description, although it is
no failure of verification. -/
theorem request_follows_words :
    let worded := Outcome.trouble
      (.openTrouble (.plain .file [.int 5, .text "proxy says certificate verify failed"] none))
    let good := Outcome.answer (some 200) none [98]
    ¬ worded.FailsVerification ∧
      (fetch "https://mds.example.com/blob" (.integer 5) none none [worded, good]).used = [.system, .bundled] := by
  intro worded good
  refine ⟨?_, by decide +kernel⟩
  change ¬ (Outcome.trouble (.openTrouble (.plain .file _ none))).FailsVerification
  rintro (h | h)
  · cases h
  · cases h

end Download
end AttestationTrust
