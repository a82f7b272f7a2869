import AttestationTrust.Proofs.Action
/-!
# Requests and what they are answered with

What a location serves may change with every request, so what came of a request is said beside it (`Exchange`), and
what locations serve is said of requests for them in a row (`Network.exchanges`).  Two worlds lie exchanges apart when
the requests have been made and recorded, and nothing else has changed but the log (`World.Exchanged`).
-/
namespace AttestationTrust

/-- A request for a location, and what came of it. -/
structure Exchange where
  url : String
  reply : Except Failure Bytes

def Reply.result : Reply → Except Failure Bytes
  | .body bs => .ok bs
  | .failure f => .error f

theorem Reply.exists_result_eq (x : Except Failure Bytes) : ∃ r : Reply, r.result = x := by
  cases x with
  | ok bs => exact ⟨.body bs, rfl⟩
  | error f => exact ⟨.failure f, rfl⟩

namespace Network

/-- What comes of a request within a bound on its time, and the network after it.  None is made within a bound that is
no floating point number. -/
def ask (n : Network) (timeout : Timeout) (url : String) : Except Failure Bytes × Network :=
  match timeout.seconds with
  | .error f => (.error f, n)
  | .ok _ =>
    match n.next url with
    | (.body bs, n') => (.ok bs, n')
    | (.failure f, n') => (.error f, n')

/-- The network after requests for locations in a row. -/
def after (timeout : Timeout) : Network → List String → Network
  | n, [] => n
  | n, url :: urls => after timeout (n.ask timeout url).2 urls

/-- What comes of requests for locations in a row. -/
def exchanges (timeout : Timeout) : Network → List String → List Exchange
  | _, [] => []
  | n, url :: urls => ⟨url, (n.ask timeout url).1⟩ :: exchanges timeout (n.ask timeout url).2 urls

variable {timeout : Timeout}

theorem after_append : ∀ (urls urls' : List String) (n : Network),
    n.after timeout (urls ++ urls') = (n.after timeout urls).after timeout urls'
  | [], _, _ => rfl
  | url :: urls, urls', n => by
    rw [List.cons_append, after, after_append urls urls']
    rfl

theorem exchanges_append : ∀ (urls urls' : List String) (n : Network), n.exchanges timeout (urls ++ urls') =
    n.exchanges timeout urls ++ (n.after timeout urls).exchanges timeout urls'
  | [], _, _ => rfl
  | url :: urls, urls', n => by
    rw [List.cons_append, exchanges, exchanges_append urls urls', exchanges, after, List.cons_append]

@[simp] theorem map_url_exchanges : ∀ (urls : List String) (n : Network),
    (n.exchanges timeout urls).map Exchange.url = urls
  | [], _ => rfl
  | url :: urls, n => by rw [exchanges, List.map_cons, map_url_exchanges urls]

/-- The exchanges of a row up to some point are those of the locations up to there. -/
theorem exchanges_eq_append {n : Network} {urls : List String} {before after : List Exchange}
    (h : n.exchanges timeout urls = before ++ after) :
    urls = before.map Exchange.url ++ after.map Exchange.url ∧
      n.exchanges timeout (before.map Exchange.url) = before ∧
      (n.after timeout (before.map Exchange.url)).exchanges timeout (after.map Exchange.url) = after := by
  have hurls : urls = before.map Exchange.url ++ after.map Exchange.url := by
    have hmap : (n.exchanges timeout urls).map Exchange.url = urls := map_url_exchanges urls n
    rw [← hmap, h, List.map_append]
  rw [hurls, exchanges_append] at h
  exact ⟨hurls, List.append_inj h (by rw [← List.length_map Exchange.url, map_url_exchanges, List.length_map])⟩

theorem exchanges_eq_append_cons {n : Network} {urls : List String} {before after : List Exchange} {x : Exchange}
    (h : n.exchanges timeout urls = before ++ x :: after) :
    urls = before.map Exchange.url ++ x.url :: after.map Exchange.url ∧
      n.exchanges timeout (before.map Exchange.url) = before ∧
      ⟨x.url, ((n.after timeout (before.map Exchange.url)).ask timeout x.url).1⟩ = x := by
  obtain ⟨hurls, hbefore, hx⟩ := exchanges_eq_append h
  exact ⟨hurls, hbefore, (List.cons.inj hx).1⟩

/-! ### Replies in a row -/

/-- What a request is answered with, and the network after it. -/
def answer (n : Network) (url : String) : Except Failure Bytes × Network :=
  ((n.next url).1.result, (n.next url).2)

theorem ask_of_ok {seconds : Binary64} (h : timeout.seconds = .ok seconds) (n : Network) (url : String) :
    n.ask timeout url = n.answer url := by
  unfold ask answer
  rw [h]
  rcases n.next url with ⟨bs | f, n'⟩ <;> rfl

/-- A network answers requests in a row as exchanges say, and is another after them. -/
inductive Serves : Network → List Exchange → Network → Prop
  | nil {n : Network} : Serves n [] n
  | cons {n m n' : Network} {x : Exchange} {xs : List Exchange} (h : n.answer x.url = (x.reply, m))
      (hrest : Serves m xs n') : Serves n (x :: xs) n'

variable {n m n' m' : Network} {x : Exchange} {xs ys : List Exchange}

theorem Serves.append (h : Serves n xs m) (h' : Serves m ys n') : Serves n (xs ++ ys) n' := by
  induction h with
  | nil => exact h'
  | cons h _ ih => exact .cons h (ih h')

theorem Serves.exists_of_append : ∀ {xs : List Exchange} {n : Network}, Serves n (xs ++ ys) n' →
    ∃ m, Serves n xs m ∧ Serves m ys n'
  | [], n, h => ⟨n, .nil, h⟩
  | _ :: _, _, .cons h hrest => by
    obtain ⟨m, hm, hys⟩ := hrest.exists_of_append
    exact ⟨m, .cons h hm, hys⟩

theorem Serves.unique (h : Serves n xs m) (h' : Serves n xs m') : m = m' := by
  induction h with
  | nil =>
    cases h'
    rfl
  | cons h _ ih =>
    obtain _ | ⟨h', hrest⟩ := h'
    cases h.symm.trans h'
    exact ih hrest

/-- Requests that are made at all are answered as the network answers them. -/
theorem Serves.eq {seconds : Binary64} (h : Serves n xs n') (ht : timeout.seconds = .ok seconds) :
    n.exchanges timeout (xs.map Exchange.url) = xs ∧ n' = n.after timeout (xs.map Exchange.url) := by
  induction h with
  | nil => exact ⟨rfl, rfl⟩
  | cons h _ ih =>
    rw [List.map_cons, exchanges, after, ask_of_ok ht, h]
    exact ⟨congrArg _ ih.1, ih.2⟩

/-- A location has one reply for all requests. -/
def IsSteady (n : Network) : Prop := ∀ url, (n.next url).2 = n

/-- A network whose replies do not change answers each request as if it were alone. -/
theorem serves_iff_of_isSteady (hn : n.IsSteady) :
    Serves n xs n' ↔ n' = n ∧ ∀ x ∈ xs, (n.answer x.url).1 = x.reply := by
  induction xs with
  | nil =>
    constructor
    · rintro ⟨⟩
      simp
    · rintro ⟨rfl, -⟩
      exact .nil
  | cons x xs ih =>
    have hsame : (n.answer x.url).2 = n := hn x.url
    rw [List.forall_mem_cons]
    constructor
    · rintro (_ | ⟨h, hrest⟩)
      obtain rfl : n = _ := hsame.symm.trans (congrArg Prod.snd h)
      obtain ⟨hn', hxs⟩ := ih.1 hrest
      exact ⟨hn', congrArg Prod.fst h, hxs⟩
    · rintro ⟨hn', hx, hxs⟩
      exact .cons (Prod.ext hx hsame) (ih.2 ⟨hn', hxs⟩)

/-- What a location still replies with: the last of its replies is never used up. -/
def pending (n : Network) (url : String) : List Reply :=
  match n.replies.lookup url with
  | some (r :: rs) => r :: rs
  | _ => [.failure (.download (.noResponse url))]

theorem next_of_pending {url : String} {r s : Reply} {rs : List Reply} (h : n.pending url = r :: s :: rs) :
    n.next url = (r, n.put url (s :: rs)) := by
  unfold pending at h
  unfold next
  split at h
  · rename_i heq
    cases h
    rw [heq]
  · cases h

theorem next_of_pending_last {url : String} {r : Reply} (h : n.pending url = [r]) : n.next url = (r, n) := by
  unfold pending at h
  unfold next
  split at h
  · rename_i heq
    cases h
    rw [heq]
  · rename_i hnone
    cases h
    split
    · rename_i heq
      exact absurd heq (hnone _ _)
    · rename_i heq
      exact absurd heq (hnone _ _)
    · rfl

theorem pending_put (n : Network) (url : String) (r : Reply) (rs : List Reply) (other : String) :
    (n.put url (r :: rs)).pending other = if other = url then r :: rs else n.pending other := by
  unfold pending put
  dsimp only
  rw [List.lookup_cons]
  by_cases h : other = url
  · simp [h]
  · have hlookup : (n.replies.filter fun e => e.1 ≠ url).lookup other = n.replies.lookup other := by
      induction n.replies with
      | nil => rfl
      | cons e replies ih =>
        by_cases he : e.1 = url
        · have hother : (other == e.1) = false := by simpa [he] using h
          rw [List.filter_cons_of_neg (by simpa using he), ih, List.lookup_cons, hother]
        · rw [List.filter_cons_of_pos (by simpa using he), List.lookup_cons, List.lookup_cons, ih]
    rw [beq_false_of_ne h, if_neg h, hlookup]

theorem exists_pending_eq_cons (n : Network) (url : String) : ∃ r rs, n.pending url = r :: rs := by
  unfold pending
  split <;> exact ⟨_, _, rfl⟩

/-- What is answered, and what is still to be answered after it, is settled by the replies that are pending. -/
theorem answer_congr (h : ∀ url, m.pending url = n.pending url) (url : String) :
    (m.answer url).1 = (n.answer url).1 ∧ ∀ other, (m.answer url).2.pending other = (n.answer url).2.pending other := by
  unfold answer
  obtain ⟨r, rs, hn⟩ := exists_pending_eq_cons n url
  have hm := (h url).trans hn
  cases rs with
  | nil =>
    rw [next_of_pending_last hn, next_of_pending_last hm]
    exact ⟨rfl, h⟩
  | cons s rs =>
    rw [next_of_pending hn, next_of_pending hm]
    exact ⟨rfl, fun other => by rw [pending_put, pending_put, h]⟩

theorem Serves.congr (h : Serves n xs n') (hm : ∀ url, m.pending url = n.pending url) : ∃ m', Serves m xs m' := by
  induction h generalizing m with
  | nil => exact ⟨m, .nil⟩
  | @cons n k n' x xs hx _ ih =>
    obtain ⟨hreply, hpending⟩ := answer_congr hm x.url
    rw [hx] at hreply hpending
    obtain ⟨m', hrest⟩ := ih hpending
    have hfirst : m.answer x.url = (x.reply, (m.answer x.url).2) := Prod.ext hreply rfl
    exact ⟨m', .cons hfirst hrest⟩

/-- There is a network for any exchanges in a row. -/
theorem exists_serves : ∀ xs : List Exchange, ∃ n n' : Network, n.Serves xs n'
  | [] => ⟨.empty, .empty, .nil⟩
  | x :: xs => by
    obtain ⟨n, n', h⟩ := exists_serves xs
    obtain ⟨r, hr⟩ := Reply.exists_result_eq x.reply
    -- the reply comes before all that are pending at its location
    obtain ⟨s, rs, hpending⟩ := exists_pending_eq_cons n x.url
    have hfirst : (n.put x.url (r :: s :: rs)).pending x.url = r :: s :: rs := by rw [pending_put, if_pos rfl]
    obtain ⟨m', hm'⟩ := h.congr (m := (n.put x.url (r :: s :: rs)).put x.url (s :: rs)) fun other => by
      rw [pending_put, pending_put]
      split
      · next hother => rw [hother, hpending]
      · rfl
    refine ⟨n.put x.url (r :: s :: rs), m', .cons ?_ hm'⟩
    rw [answer, next_of_pending hfirst, hr]

end Network

/-- The requests for locations as a world records them. -/
def Timeout.requests (timeout : Timeout) (urls : List String) : List (String × Binary64) :=
  match timeout.seconds with
  | .error _ => []
  | .ok seconds => urls.map (·, seconds)

theorem Timeout.requests_append (timeout : Timeout) (urls urls' : List String) :
    timeout.requests (urls ++ urls') = timeout.requests urls ++ timeout.requests urls' := by
  unfold Timeout.requests
  cases timeout.seconds with
  | error f => rfl
  | ok seconds => exact List.map_append

/-- Exchanges lie between two worlds, and nothing else does but what is logged. -/
structure World.Exchanged (timeout : Timeout) (xs : List Exchange) (w w' : World) : Prop where
  served : w.network.exchanges timeout (xs.map Exchange.url) = xs
  network : w'.network = w.network.after timeout (xs.map Exchange.url)
  requests : w'.requests = w.requests ++ timeout.requests (xs.map Exchange.url)
  given : w'.given = w.given

namespace World.Exchanged

variable {timeout : Timeout} {xs ys : List Exchange} {w w' w'' : World}

theorem of_outside (timeout : Timeout) (h : w'.outside = w.outside) : Exchanged timeout [] w w' := by
  simp only [World.outside, Prod.mk.injEq] at h
  obtain ⟨hclock, hfiles, hnetwork, hrequests⟩ := h
  refine ⟨rfl, hnetwork, ?_, by simp [World.given, hclock, hfiles]⟩
  rw [hrequests]
  cases ht : timeout.seconds <;> simp [Timeout.requests, ht]

theorem append (h : Exchanged timeout xs w w') (h' : Exchanged timeout ys w' w'') :
    Exchanged timeout (xs ++ ys) w w'' where
  served := by rw [List.map_append, Network.exchanges_append, h.served, ← h.network, h'.served]
  network := by rw [List.map_append, Network.after_append, ← h.network, h'.network]
  requests := by rw [List.map_append, Timeout.requests_append, h'.requests, h.requests, List.append_assoc]
  given := h'.given.trans h.given

/-- What is logged afterwards makes no difference. -/
theorem record (h : Exchanged timeout xs w w') (level : Level) (topic text : String) :
    Exchanged timeout xs w (w'.record level topic text) :=
  ⟨h.served, h.network, h.requests, h.given⟩

end World.Exchanged

namespace Action

theorem fetch_apply (url : String) (timeout : Timeout) (w : World) : fetch url timeout w =
    ((w.network.ask timeout url).1, { w with
      network := (w.network.ask timeout url).2, requests := w.requests ++ timeout.requests [url] }) := by
  unfold fetch Network.ask World.fetch Timeout.requests
  cases timeout.seconds with
  | error f => simp
  | ok seconds =>
    dsimp only
    rcases w.network.next url with ⟨bs | f, n⟩ <;> rfl

theorem fetch_of_error {timeout : Timeout} {f : Failure} (h : timeout.seconds = .error f) (url : String) (w : World) :
    fetch url timeout w = (.error f, w) := by
  unfold fetch
  rw [h]

theorem fetch_of_ok {timeout : Timeout} {seconds : Binary64} (h : timeout.seconds = .ok seconds) (url : String)
    (w : World) : fetch url timeout w = ((w.network.answer url).1, { w with
      network := (w.network.answer url).2, requests := w.requests ++ [(url, seconds)] }) := by
  rw [fetch_apply, Network.ask_of_ok h, Timeout.requests, h]
  rfl

theorem exchanged_fetch (url : String) (timeout : Timeout) (w : World) :
    w.Exchanged timeout [⟨url, (w.network.ask timeout url).1⟩] (fetch url timeout w).2 := by
  rw [fetch_apply]
  exact ⟨rfl, rfl, rfl, rfl⟩

end Action
end AttestationTrust
