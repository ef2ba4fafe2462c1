import AuraCall.AccountMirror.Completion
import Mathlib.Data.List.Induction
import Mathlib.Data.List.Nodup
import Mathlib.Logic.Function.Basic

/-!
# The provider work coordinator

`createAccountMirrorProviderWorkCoordinator`: one owner at a time for each provider, and a queue of those that wait for it.
When the owner releases its lease, the first of the queue that is still eligible gets a new one, and those before it are
turned away (`handOver_eq`). No call of the coordinator awaits anything before it has changed the state, so the calls come
one after the other.

`Sound` is the invariant: a lease that has not been released is that of the owner, and every call is either in the queue or
has been answered, and that once. From it follows what holds after every sequence of calls (`work_queue`).
-/

namespace AuraCall.AccountMirror

namespace ProviderWork

/-! ## The state -/

/-- A lease; the number tells the leases apart that have been given out. -/
structure Lease where
  number : Nat
  provider : Provider
  ownerId : String
  deriving DecidableEq

/-- A call of `acquire`; the number tells the calls apart. -/
structure Request where
  call : Nat
  provider : Provider
  ownerId : String
  deriving DecidableEq

/-- What `acquire` resolves to: a new lease, the lease that the owner holds already, or `null`. -/
inductive Answer
  | granted (lease : Lease)
  | held (lease : Lease)
  | refused
  deriving DecidableEq

/-- The owners and the waiters of the providers, with all that has been asked and answered so far. -/
structure State where
  owners : Provider → Option Lease
  waiters : Provider → List Request
  leases : List Lease
  released : List Lease
  requests : List Request
  answers : List (Nat × Answer)

def State.empty : State := ⟨fun _ => none, fun _ => [], [], [], [], []⟩

/-- The calls, with what the callbacks `isEligible` answer during the call. -/
inductive Action
  | acquire (provider : Provider) (ownerId : String) (isEligible : Bool)
  | release (lease : Lease) (isEligible : Request → Bool)
  | cancel (ownerId : String)

/-! ## Calls -/

/-- `waiter.resolve(answer)`. -/
def State.answer (s : State) (request : Request) (answer : Answer) : State :=
  { s with answers := s.answers ++ [(request.call, answer)] }

/-- `createLease`, and making it the lease of the owner. -/
def State.grant (s : State) (request : Request) : State :=
  let lease : Lease := ⟨s.leases.length, request.provider, request.ownerId⟩
  { s with
    owners := Function.update s.owners request.provider (some lease)
    leases := s.leases ++ [lease]
    answers := s.answers ++ [(request.call, .granted lease)] }

def State.setWaiters (s : State) (provider : Provider) (queue : List Request) : State :=
  { s with waiters := Function.update s.waiters provider queue }

/-- The loop of `grantNext`. -/
def handOver (isEligible : Request → Bool) (provider : Provider) (s : State) : List Request → State
  | [] => s.setWaiters provider []
  | waiter :: queue =>
    if !isEligible waiter then handOver isEligible provider (s.answer waiter .refused) queue
    else (s.grant waiter).setWaiters provider queue

def grantNext (isEligible : Request → Bool) (provider : Provider) (s : State) : State :=
  handOver isEligible provider s (s.waiters provider)

/-- `lease.release()`. -/
def release (lease : Lease) (isEligible : Request → Bool) (s : State) : State :=
  if lease ∉ s.leases ∨ lease ∈ s.released then s
  else
    let s := { s with released := s.released ++ [lease] }
    if (s.owners lease.provider).map (·.ownerId) ≠ some lease.ownerId then s
    else grantNext isEligible lease.provider { s with owners := Function.update s.owners lease.provider none }

def acquire (provider : Provider) (ownerId : String) (isEligible : Bool) (s : State) : State :=
  let request : Request := ⟨s.requests.length, provider, ownerId⟩
  let s := { s with requests := s.requests ++ [request] }
  match s.owners provider with
  | some active =>
    if active.ownerId = ownerId then s.answer request (.held active)
    else s.setWaiters provider (s.waiters provider ++ [request])
  | none => if isEligible then s.grant request else s.answer request .refused

/-- One turn of the loop of `cancel`. -/
def cancelIn (ownerId : String) (s : State) (provider : Provider) : State :=
  let queue := s.waiters provider
  { s with
    waiters := Function.update s.waiters provider (queue.filter (·.ownerId ≠ ownerId))
    answers := s.answers ++ (queue.filter (·.ownerId = ownerId)).map fun waiter => (waiter.call, .refused) }

def cancel (ownerId : String) (s : State) : State := [Provider.chatgpt, .gemini, .grok].foldl (cancelIn ownerId) s

def perform (s : State) : Action → State
  | .acquire provider ownerId isEligible => acquire provider ownerId isEligible s
  | .release lease isEligible => release lease isEligible s
  | .cancel ownerId => cancel ownerId s

/-- The state after a sequence of calls. -/
def run (actions : List Action) : State := actions.foldl perform .empty

/-! ## The leases -/

/-- The owner of a provider holds a lease that has not been released, and nobody else does. -/
structure Leased (s : State) : Prop where
  owner : ∀ provider lease, s.owners provider = some lease →
    lease ∈ s.leases ∧ lease.provider = provider ∧ lease ∉ s.released
  held : ∀ lease ∈ s.leases, lease ∉ s.released → s.owners lease.provider = some lease
  numbered : ∀ lease ∈ s.leases, lease.number < s.leases.length
  known : ∀ lease ∈ s.released, lease ∈ s.leases

section Leases

variable {s : State} {lease : Lease} {request : Request}

theorem Leased.fresh (h : Leased s) (provider : Provider) (ownerId : String) :
    (⟨s.leases.length, provider, ownerId⟩ : Lease) ∉ s.leases := fun hmem => Nat.lt_irrefl _ (h.numbered _ hmem)

theorem Leased.grant (h : Leased s) (hidle : s.owners request.provider = none) : Leased (s.grant request) where
  owner provider lease hlease := by
    by_cases hp : provider = request.provider
    · subst hp
      have hnew := (Function.update_self ..).symm.trans hlease
      cases hnew
      exact ⟨List.mem_append_right _ List.mem_cons_self, rfl, fun hreleased => h.fresh _ _ (h.known _ hreleased)⟩
    · have hold := (Function.update_of_ne hp ..).symm.trans hlease
      obtain ⟨hmem, hprovider, hreleased⟩ := h.owner provider lease hold
      exact ⟨List.mem_append_left _ hmem, hprovider, hreleased⟩
  held lease hlease hreleased := by
    rcases List.mem_append.1 hlease with hmem | hmem
    · have howner := h.held lease hmem hreleased
      have hp : lease.provider ≠ request.provider := fun hp => by rw [hp, hidle] at howner; cases howner
      exact (Function.update_of_ne hp ..).trans howner
    · rw [List.mem_singleton.1 hmem]
      exact Function.update_self ..
  numbered lease hlease := by
    show _ < (s.leases ++ [_]).length
    rw [List.length_append, List.length_singleton]
    rcases List.mem_append.1 hlease with hmem | hmem
    · exact Nat.lt_succ_of_lt (h.numbered lease hmem)
    · rw [List.mem_singleton.1 hmem]
      exact Nat.lt_succ_self _
  known lease hlease := List.mem_append_left _ (h.known lease hlease)

/-- The owner has released its lease. -/
def State.vacate (s : State) (lease : Lease) : State :=
  { s with released := s.released ++ [lease], owners := Function.update s.owners lease.provider none }

theorem Leased.vacate (h : Leased s) (howner : s.owners lease.provider = some lease) : Leased (s.vacate lease) where
  owner provider other hother := by
    by_cases hp : provider = lease.provider
    · subst hp
      cases (Function.update_self ..).symm.trans hother
    · have hold := (Function.update_of_ne hp ..).symm.trans hother
      obtain ⟨hmem, hprovider, hreleased⟩ := h.owner provider other hold
      refine ⟨hmem, hprovider, fun hnow => ?_⟩
      rcases List.mem_append.1 hnow with hnow | hnow
      · exact hreleased hnow
      · rw [List.mem_singleton.1 hnow] at hprovider
        exact hp hprovider.symm
  held other hother hreleased := by
    have hold := h.held other hother fun hmem => hreleased (List.mem_append_left _ hmem)
    have hp : other.provider ≠ lease.provider := fun hp => by
      rw [hp, howner] at hold
      cases hold
      exact hreleased (List.mem_append_right _ List.mem_cons_self)
    exact (Function.update_of_ne hp ..).trans hold
  numbered := h.numbered
  known other hother := by
    rcases List.mem_append.1 hother with hmem | hmem
    · exact h.known other hmem
    · rw [List.mem_singleton.1 hmem]
      exact (h.owner _ _ howner).1

end Leases

/-! ## The queues -/

/-- The calls that have been answered. -/
def State.answered (s : State) : List Nat := s.answers.map (·.1)

/-- Whoever asked for a provider before a call that was granted a lease was answered before it. -/
def InOrder (requests : List Request) (answers : List (Nat × Answer)) : Prop :=
  ∀ (n : Nat) (request : Request) (lease : Lease), answers[n]? = some (request.call, .granted lease) →
    request ∈ requests → ∀ earlier ∈ requests, earlier.provider = request.provider → earlier.call < request.call →
      earlier.call ∈ (answers.take n).map (·.1)

section Order

variable {requests : List Request} {answers : List (Nat × Answer)}

theorem InOrder.concat (h : InOrder requests answers) {call : Nat} {answer : Answer}
    (hlast : ∀ lease, answer = .granted lease → ∀ request ∈ requests, request.call = call → ∀ earlier ∈ requests,
      earlier.provider = request.provider → earlier.call < call → earlier.call ∈ answers.map (·.1)) :
    InOrder requests (answers ++ [(call, answer)]) := by
  intro n request lease hn hrequest earlier hearlier hsame hlt
  rcases Nat.lt_trichotomy n answers.length with hlt' | rfl | hgt
  · rw [List.getElem?_append_left hlt'] at hn
    rw [List.take_append_of_le_length (Nat.le_of_lt hlt')]
    exact h n request lease hn hrequest earlier hearlier hsame hlt
  · rw [List.getElem?_concat_length] at hn
    cases hn
    rw [List.take_left]
    exact hlast lease rfl request hrequest rfl earlier hearlier hsame hlt
  · rw [List.getElem?_eq_none (by simp; omega)] at hn
    cases hn

theorem InOrder.refuse (h : InOrder requests answers) (calls : List Nat) :
    InOrder requests (answers ++ calls.map fun call => (call, .refused)) := by
  induction calls using List.reverseRecOn with
  | nil => rwa [List.map_nil, List.append_nil]
  | append_singleton calls call ih =>
    rw [List.map_append, ← List.append_assoc]
    exact ih.concat fun lease hlease => nomatch hlease

theorem InOrder.ask (h : InOrder requests answers) {request : Request}
    (hnew : ∀ other ∈ requests, other.call < request.call) (hasked : request.call ∉ answers.map (·.1)) :
    InOrder (requests ++ [request]) answers := by
  intro n granted lease hn hgranted earlier hearlier hsame hlt
  have hanswered : granted.call ∈ answers.map (·.1) := List.mem_map_of_mem (List.mem_of_getElem? hn)
  rcases List.mem_append.1 hgranted with hgranted | hgranted
  · rcases List.mem_append.1 hearlier with hearlier | hearlier
    · exact h n granted lease hn hgranted earlier hearlier hsame hlt
    · rw [List.mem_singleton.1 hearlier] at hlt
      exact absurd (hnew granted hgranted) (Nat.not_lt_of_lt hlt)
  · rw [List.mem_singleton.1 hgranted] at hanswered
    exact absurd hanswered hasked

end Order

/-- Every call is in the queue of its provider, in the order of arrival, or has been answered, and that once. -/
structure Queued (s : State) : Prop where
  numbered : ∀ (n : Nat) (request : Request), s.requests[n]? = some request → request.call = n
  waiter : ∀ provider, ∀ request ∈ s.waiters provider, request ∈ s.requests ∧ request.provider = provider
  sorted : ∀ provider, (s.waiters provider).Pairwise fun first second : Request => first.call < second.call
  unanswered : ∀ provider, ∀ request ∈ s.waiters provider, request.call ∉ s.answered
  settled : ∀ request ∈ s.requests, request.call ∈ s.answered ∨ request ∈ s.waiters request.provider
  once : s.answered.Nodup
  asked : ∀ call ∈ s.answered, call < s.requests.length
  ordered : InOrder s.requests s.answers

section Queues

variable {s : State} {provider : Provider} {request waiter : Request} {queue : List Request} {answer : Answer}

theorem Queued.of_eq {s' : State} (h : Queued s) (hrequests : s'.requests = s.requests) (hwaiters : s'.waiters = s.waiters)
    (hanswers : s'.answers = s.answers) : Queued s' := by
  obtain ⟨owners, waiters, leases, released, requests, answers⟩ := s'
  cases hrequests
  cases hwaiters
  cases hanswers
  exact ⟨h.numbered, h.waiter, h.sorted, h.unanswered, h.settled, h.once, h.asked, h.ordered⟩

theorem Queued.getElem?_call (h : Queued s) (hr : request ∈ s.requests) : s.requests[request.call]? = some request := by
  obtain ⟨n, hn⟩ := List.mem_iff_getElem?.1 hr
  rw [h.numbered n request hn]
  exact hn

theorem Queued.call_lt (h : Queued s) (hr : request ∈ s.requests) : request.call < s.requests.length :=
  (List.getElem?_eq_some_iff.1 (h.getElem?_call hr)).1

theorem Queued.eq_of_call (h : Queued s) {other : Request} (hr : request ∈ s.requests) (ho : other ∈ s.requests)
    (hcall : request.call = other.call) : request = other := by
  have hrequest := h.getElem?_call hr
  rw [hcall, h.getElem?_call ho] at hrequest
  exact (Option.some.inj hrequest).symm

theorem answered_answer (s : State) (request : Request) (answer : Answer) :
    (s.answer request answer).answered = s.answered ++ [request.call] := by
  simp [State.answered, State.answer]

theorem Queued.pop (h : Queued s) (hq : s.waiters provider = waiter :: queue) :
    Queued ((s.answer waiter answer).setWaiters provider queue) := by
  have hfirst : waiter ∈ s.waiters provider := hq ▸ List.mem_cons_self
  obtain ⟨hasked, hprovider⟩ := h.waiter provider waiter hfirst
  have hsorted := List.pairwise_cons.1 (hq ▸ h.sorted provider)
  have hself : ((s.answer waiter answer).setWaiters provider queue).waiters provider = queue := Function.update_self ..
  have hother : ∀ p ≠ provider, ((s.answer waiter answer).setWaiters provider queue).waiters p = s.waiters p :=
    fun p hp => Function.update_of_ne hp ..
  have hkept : ∀ p, ∀ request ∈ ((s.answer waiter answer).setWaiters provider queue).waiters p,
      request ∈ s.waiters p ∧ request.call ≠ waiter.call := by
    intro p request hrequest
    by_cases hp : p = provider
    · subst hp
      rw [hself] at hrequest
      exact ⟨hq ▸ List.mem_cons_of_mem waiter hrequest, (Nat.ne_of_lt (hsorted.1 request hrequest)).symm⟩
    · rw [hother p hp] at hrequest
      refine ⟨hrequest, fun hcall => hp ?_⟩
      obtain ⟨hmem, hof⟩ := h.waiter p request hrequest
      rw [← hof, h.eq_of_call hmem hasked hcall, hprovider]
  constructor
  · exact h.numbered
  · exact fun p request hrequest => h.waiter p request (hkept p request hrequest).1
  · intro p
    by_cases hp : p = provider
    · subst hp
      rw [hself]
      exact hsorted.2
    · rw [hother p hp]
      exact h.sorted p
  · intro p request hrequest
    show request.call ∉ (s.answer waiter answer).answered
    obtain ⟨hwaits, hne⟩ := hkept p request hrequest
    rw [answered_answer, List.mem_append, List.mem_singleton]
    exact not_or.2 ⟨h.unanswered p request hwaits, hne⟩
  · intro request hrequest
    show request.call ∈ (s.answer waiter answer).answered ∨ _
    rw [answered_answer, List.mem_append, List.mem_singleton]
    rcases h.settled request hrequest with hanswered | hwaits
    · exact .inl (.inl hanswered)
    · by_cases hp : request.provider = provider
      · rw [hp, hq] at hwaits
        rcases List.mem_cons.1 hwaits with rfl | hwaits
        · exact .inl (.inr rfl)
        · right
          rw [hp, hself]
          exact hwaits
      · right
        rw [hother _ hp]
        exact hwaits
  · show (s.answer waiter answer).answered.Nodup
    rw [answered_answer, List.nodup_append]
    refine ⟨h.once, List.nodup_singleton _, fun call hcall other hother heq => ?_⟩
    rw [List.mem_singleton.1 hother] at heq
    exact h.unanswered provider waiter hfirst (heq ▸ hcall)
  · intro call hcall
    have hcall' : call ∈ (s.answer waiter answer).answered := hcall
    rw [answered_answer, List.mem_append, List.mem_singleton] at hcall'
    rcases hcall' with hcall' | rfl
    · exact h.asked call hcall'
    · exact h.call_lt hasked
  · refine h.ordered.concat fun lease _ request hrequest hcall earlier hearlier hsame hlt => ?_
    rcases h.settled earlier hearlier with hanswered | hwaits
    · exact hanswered
    · rw [hsame, h.eq_of_call hrequest hasked hcall, hprovider, hq] at hwaits
      rcases List.mem_cons.1 hwaits with rfl | hwaits
      · exact absurd hlt (Nat.lt_irrefl _)
      · exact absurd (hsorted.1 earlier hwaits) (Nat.not_lt_of_lt hlt)

theorem Queued.cancelIn (h : Queued s) (ownerId : String) (provider : Provider) : Queued (cancelIn ownerId s provider) := by
  have hself : (ProviderWork.cancelIn ownerId s provider).waiters provider =
      (s.waiters provider).filter (·.ownerId ≠ ownerId) := Function.update_self ..
  have hother : ∀ p ≠ provider, (ProviderWork.cancelIn ownerId s provider).waiters p = s.waiters p :=
    fun p hp => Function.update_of_ne hp ..
  have hanswered : (ProviderWork.cancelIn ownerId s provider).answered =
      s.answered ++ ((s.waiters provider).filter (·.ownerId = ownerId)).map (·.call) := by
    simp [State.answered, ProviderWork.cancelIn, Function.comp_def]
  have hsub : ∀ p, ((ProviderWork.cancelIn ownerId s provider).waiters p).Sublist (s.waiters p) := by
    intro p
    by_cases hp : p = provider
    · subst hp
      rw [hself]
      exact List.filter_sublist
    · rw [hother p hp]
  have haway : ∀ call ∈ ((s.waiters provider).filter (·.ownerId = ownerId)).map (·.call), ∃ gone ∈ s.waiters provider,
      gone.ownerId = ownerId ∧ gone.call = call := by
    intro call hcall
    obtain ⟨gone, hgone, rfl⟩ := List.mem_map.1 hcall
    obtain ⟨hgone, howner⟩ := List.mem_filter.1 hgone
    exact ⟨gone, hgone, of_decide_eq_true howner, rfl⟩
  constructor
  · exact h.numbered
  · exact fun p request hrequest => h.waiter p request ((hsub p).subset hrequest)
  · exact fun p => (h.sorted p).sublist (hsub p)
  · intro p request hrequest
    obtain ⟨hmem, hof⟩ := h.waiter p request ((hsub p).subset hrequest)
    rw [hanswered, List.mem_append]
    refine not_or.2 ⟨h.unanswered p request ((hsub p).subset hrequest), fun hgone => ?_⟩
    obtain ⟨gone, hgone, howner, hcall⟩ := haway _ hgone
    obtain ⟨hmem', hof'⟩ := h.waiter provider gone hgone
    have hsame := h.eq_of_call hmem' hmem hcall
    subst hsame
    rw [← hof, hof', hself] at hrequest
    exact absurd howner (of_decide_eq_true (List.mem_filter.1 hrequest).2)
  · intro request hrequest
    rw [hanswered, List.mem_append]
    rcases h.settled request hrequest with hdone | hwaits
    · exact .inl (.inl hdone)
    · by_cases hp : request.provider = provider
      · by_cases howner : request.ownerId = ownerId
        · exact .inl (.inr (List.mem_map_of_mem (List.mem_filter.2 ⟨hp ▸ hwaits, decide_eq_true howner⟩)))
        · right
          rw [hp, hself]
          exact List.mem_filter.2 ⟨hp ▸ hwaits, decide_eq_true howner⟩
      · right
        rw [hother _ hp]
        exact hwaits
  · rw [hanswered, List.nodup_append]
    refine ⟨h.once, ?_, fun call hcall other hgone heq => ?_⟩
    · have hsorted := (h.sorted provider).sublist (List.filter_sublist (p := (·.ownerId = ownerId)))
      exact (List.pairwise_map.2 hsorted).imp Nat.ne_of_lt
    · obtain ⟨gone, hwaits, -, rfl⟩ := haway other hgone
      exact h.unanswered provider gone hwaits (heq ▸ hcall)
  · intro call hcall
    rw [hanswered, List.mem_append] at hcall
    rcases hcall with hcall | hcall
    · exact h.asked call hcall
    · obtain ⟨gone, hgone, -, rfl⟩ := haway call hcall
      exact h.call_lt (h.waiter provider gone hgone).1
  · have hrefused := h.ordered.refuse (((s.waiters provider).filter (·.ownerId = ownerId)).map (·.call))
    rwa [List.map_map] at hrefused

theorem Queued.numbered_concat (h : Queued s) (hcall : request.call = s.requests.length) (n : Nat) (other : Request)
    (hother : (s.requests ++ [request])[n]? = some other) : other.call = n := by
  rcases Nat.lt_trichotomy n s.requests.length with hlt | rfl | hgt
  · rw [List.getElem?_append_left hlt] at hother
    exact h.numbered n other hother
  · rw [List.getElem?_concat_length] at hother
    cases hother
    exact hcall
  · rw [List.getElem?_eq_none (by simp; omega)] at hother
    cases hother

theorem Queued.call_lt_new (h : Queued s) (hcall : request.call = s.requests.length) :
    ∀ other ∈ s.requests, other.call < request.call := fun _ hother => hcall ▸ h.call_lt hother

/-- A new call that is answered at once; it may be granted a lease if nobody waits. -/
theorem Queued.askAnswered (h : Queued s) (hcall : request.call = s.requests.length)
    (hgranted : ∀ lease, answer = .granted lease → s.waiters request.provider = []) :
    Queued ({ s with requests := s.requests ++ [request] }.answer request answer) := by
  have hnew := h.call_lt_new hcall
  have hfresh : request.call ∉ s.answered := fun hmem => Nat.lt_irrefl _ (hcall ▸ h.asked _ hmem)
  have hanswered : ({ s with requests := s.requests ++ [request] }.answer request answer).answered =
      s.answered ++ [request.call] := answered_answer _ _ _
  constructor
  · exact h.numbered_concat hcall
  · exact fun p other hother => ⟨List.mem_append_left _ (h.waiter p other hother).1, (h.waiter p other hother).2⟩
  · exact h.sorted
  · intro p other hother
    rw [hanswered, List.mem_append, List.mem_singleton]
    exact not_or.2 ⟨h.unanswered p other hother, Nat.ne_of_lt (hnew other (h.waiter p other hother).1)⟩
  · intro other hother
    rw [hanswered, List.mem_append, List.mem_singleton]
    rcases List.mem_append.1 hother with hother | hother
    · rcases h.settled other hother with hdone | hwaits
      · exact .inl (.inl hdone)
      · exact .inr hwaits
    · rw [List.mem_singleton.1 hother]
      exact .inl (.inr rfl)
  · rw [hanswered, List.nodup_append]
    refine ⟨h.once, List.nodup_singleton _, fun call hmem other hother heq => ?_⟩
    rw [List.mem_singleton.1 hother] at heq
    exact hfresh (heq ▸ hmem)
  · intro call hmem
    show call < (s.requests ++ [request]).length
    rw [hanswered, List.mem_append, List.mem_singleton] at hmem
    rw [List.length_append, List.length_singleton]
    rcases hmem with hmem | rfl
    · exact Nat.lt_succ_of_lt (h.asked call hmem)
    · exact hcall ▸ Nat.lt_succ_self _
  · refine (h.ordered.ask hnew hfresh).concat fun lease hlease granted hmem hof earlier hearlier hsame hlt => ?_
    have hrequest : granted = request := by
      rcases List.mem_append.1 hmem with hmem | hmem
      · exact absurd hof (Nat.ne_of_lt (hnew granted hmem))
      · exact List.mem_singleton.1 hmem
    rcases List.mem_append.1 hearlier with hearlier | hearlier
    · rcases h.settled earlier hearlier with hdone | hwaits
      · exact hdone
      · rw [hsame, hrequest, hgranted lease hlease] at hwaits
        cases hwaits
    · rw [List.mem_singleton.1 hearlier] at hlt
      exact absurd hlt (Nat.lt_irrefl _)

theorem Queued.askWaiting (h : Queued s) (hcall : request.call = s.requests.length) :
    Queued ({ s with requests := s.requests ++ [request] }.setWaiters request.provider
      (s.waiters request.provider ++ [request])) := by
  have hnew := h.call_lt_new hcall
  have hfresh : request.call ∉ s.answered := fun hmem => Nat.lt_irrefl _ (hcall ▸ h.asked _ hmem)
  have hself : ({ s with requests := s.requests ++ [request] }.setWaiters request.provider
      (s.waiters request.provider ++ [request])).waiters request.provider =
        s.waiters request.provider ++ [request] := Function.update_self ..
  have hother : ∀ p ≠ request.provider, ({ s with requests := s.requests ++ [request] }.setWaiters request.provider
      (s.waiters request.provider ++ [request])).waiters p = s.waiters p := fun p hp => Function.update_of_ne hp ..
  have hwaiters : ∀ p, ∀ other, other ∈ ({ s with requests := s.requests ++ [request] }.setWaiters request.provider
      (s.waiters request.provider ++ [request])).waiters p ↔
        other ∈ s.waiters p ∨ p = request.provider ∧ other = request := by
    intro p other
    by_cases hp : p = request.provider
    · subst hp
      rw [hself, List.mem_append, List.mem_singleton]
      simp
    · rw [hother p hp]
      simp [hp]
  constructor
  · exact h.numbered_concat hcall
  · intro p other hmem
    rcases (hwaiters p other).1 hmem with hold | ⟨rfl, rfl⟩
    · exact ⟨List.mem_append_left _ (h.waiter p other hold).1, (h.waiter p other hold).2⟩
    · exact ⟨List.mem_append_right _ List.mem_cons_self, rfl⟩
  · intro p
    by_cases hp : p = request.provider
    · subst hp
      rw [hself, List.pairwise_append]
      refine ⟨h.sorted _, List.pairwise_singleton _ _, fun first hfirst second hsecond => ?_⟩
      rw [List.mem_singleton.1 hsecond]
      exact hnew first (h.waiter _ first hfirst).1
    · rw [hother p hp]
      exact h.sorted p
  · intro p other hmem
    rcases (hwaiters p other).1 hmem with hold | ⟨-, rfl⟩
    · exact h.unanswered p other hold
    · exact hfresh
  · intro other hmem
    rcases List.mem_append.1 hmem with hmem | hmem
    · rcases h.settled other hmem with hdone | hwaits
      · exact .inl hdone
      · exact .inr ((hwaiters _ other).2 (.inl hwaits))
    · rw [List.mem_singleton.1 hmem]
      exact .inr ((hwaiters _ request).2 (.inr ⟨rfl, rfl⟩))
  · exact h.once
  · intro call hmem
    show call < (s.requests ++ [request]).length
    rw [List.length_append, List.length_singleton]
    exact Nat.lt_succ_of_lt (h.asked call hmem)
  · exact h.ordered.ask hnew hfresh

end Queues

/-! ## Handing over -/

/-- Nobody waits for a provider that has no owner. -/
def NoneStranded (s : State) : Prop := ∀ provider, s.owners provider = none → s.waiters provider = []

section HandOver

variable {isEligible : Request → Bool} {provider : Provider}

/-- Handing over turns away those in front that are not eligible any more, and grants the next. -/
theorem handOver_eq (s : State) (queue : List Request) :
    handOver isEligible provider s queue =
      let turnedAway := queue.takeWhile (!isEligible ·)
      let s' := { s with answers := s.answers ++ turnedAway.map fun waiter : Request => (waiter.call, Answer.refused) }
      match queue.dropWhile (!isEligible ·) with
      | [] => s'.setWaiters provider []
      | waiter :: rest => (s'.grant waiter).setWaiters provider rest := by
  induction queue generalizing s with
  | nil =>
    rw [handOver, List.takeWhile_nil, List.dropWhile_nil]
    simp only [List.map_nil, List.append_nil]
  | cons waiter queue ih =>
    by_cases he : isEligible waiter = true
    · rw [handOver, List.takeWhile_cons, List.dropWhile_cons, he]
      simp
    · rw [handOver, List.takeWhile_cons, List.dropWhile_cons, eq_false_of_ne_true he]
      simp only [Bool.not_false, if_true, ih, List.map_cons]
      simp [State.answer]

theorem Queued.handOver {s : State} {queue : List Request} (h : Queued (s.setWaiters provider queue)) :
    Queued (handOver isEligible provider s queue) := by
  induction queue generalizing s with
  | nil => exact h
  | cons waiter queue ih =>
    rw [ProviderWork.handOver]
    have hpop := fun answer => @Queued.pop _ provider waiter queue answer h (Function.update_self ..)
    split
    · refine ih ((hpop .refused).of_eq rfl ?_ rfl)
      exact (Function.update_idem ..).symm
    · refine (hpop (.granted ⟨s.leases.length, waiter.provider, waiter.ownerId⟩)).of_eq rfl ?_ rfl
      exact (Function.update_idem ..).symm

/-- The queue of one provider says nothing of the leases, nor does an answer. -/
theorem Leased.of_eq {s s' : State} (h : Leased s) (howners : s'.owners = s.owners) (hleases : s'.leases = s.leases)
    (hreleased : s'.released = s.released) : Leased s' := by
  obtain ⟨owners, waiters, leases, released, requests, answers⟩ := s'
  cases howners
  cases hleases
  cases hreleased
  exact ⟨h.owner, h.held, h.numbered, h.known⟩

theorem Leased.handOver {s : State} {queue : List Request} (h : Leased s) (hidle : s.owners provider = none)
    (hqueue : ∀ request ∈ queue, request.provider = provider) : Leased (handOver isEligible provider s queue) := by
  induction queue generalizing s with
  | nil => exact h.of_eq rfl rfl rfl
  | cons waiter queue ih =>
    rw [ProviderWork.handOver]
    split
    · exact ih (h.of_eq rfl rfl rfl) hidle fun request hrequest => hqueue request (List.mem_cons_of_mem _ hrequest)
    · rw [← hqueue waiter List.mem_cons_self] at hidle
      exact (h.grant hidle).of_eq rfl rfl rfl

/-- Handing over leaves nobody waiting for the provider unless somebody is the owner now. -/
theorem NoneStranded.handOver {s : State} {queue : List Request}
    (h : ∀ p ≠ provider, s.owners p = none → s.waiters p = [])
    (hqueue : ∀ request ∈ queue, request.provider = provider) : NoneStranded (handOver isEligible provider s queue) := by
  induction queue generalizing s with
  | nil =>
    intro p hp
    by_cases heq : p = provider
    · subst heq
      exact Function.update_self ..
    · exact (Function.update_of_ne heq ..).trans (h p heq hp)
  | cons waiter queue ih =>
    rw [ProviderWork.handOver]
    split
    · exact ih h fun request hrequest => hqueue request (List.mem_cons_of_mem _ hrequest)
    · have hwaiter := hqueue waiter List.mem_cons_self
      intro p hp
      by_cases heq : p = provider
      · subst heq
        subst hwaiter
        cases (Function.update_self ..).symm.trans hp
      · have hold := (Function.update_of_ne (hwaiter ▸ heq) ..).symm.trans hp
        exact (Function.update_of_ne heq ..).trans (h p heq hold)

end HandOver

/-! ## Every sequence of calls -/

/-- The invariant of the coordinator. -/
structure Sound (s : State) : Prop where
  leased : Leased s
  queued : Queued s
  noneStranded : NoneStranded s

section Calls

variable {s : State}

theorem Sound.empty : Sound .empty where
  leased := ⟨nofun, nofun, nofun, nofun⟩
  queued := ⟨nofun, nofun, fun _ => .nil, nofun, nofun, .nil, nofun, nofun⟩
  noneStranded _ _ := rfl

theorem release_of_owner (h : Leased s) {lease : Lease} (howner : s.owners lease.provider = some lease)
    (isEligible : Request → Bool) :
    release lease isEligible s = grantNext isEligible lease.provider (s.vacate lease) := by
  obtain ⟨hmem, -, hreleased⟩ := h.owner _ _ howner
  rw [release, if_neg (not_or.2 ⟨not_not.2 hmem, hreleased⟩)]
  simp [howner, State.vacate]

theorem release_of_not_owner (h : Leased s) {lease : Lease} (hother : s.owners lease.provider ≠ some lease)
    (isEligible : Request → Bool) : release lease isEligible s = s := by
  rw [release, if_pos]
  by_cases hmem : lease ∈ s.leases
  · by_cases hreleased : lease ∈ s.released
    · exact .inr hreleased
    · exact absurd (h.held lease hmem hreleased) hother
  · exact .inl hmem

theorem Sound.release (h : Sound s) (lease : Lease) (isEligible : Request → Bool) :
    Sound (release lease isEligible s) := by
  by_cases howner : s.owners lease.provider = some lease
  · rw [release_of_owner h.leased howner]
    have hqueue := fun request hmem => (h.queued.waiter lease.provider request hmem).2
    refine ⟨?_, ?_, ?_⟩
    · exact (h.leased.vacate howner).handOver (Function.update_self ..) hqueue
    · exact Queued.handOver (h.queued.of_eq rfl (Function.update_eq_self ..) rfl)
    · refine NoneStranded.handOver (fun p hp hidle => ?_) hqueue
      exact h.noneStranded p ((Function.update_of_ne hp ..).symm.trans hidle)
  · rw [release_of_not_owner h.leased howner]
    exact h

theorem Sound.acquire (h : Sound s) (provider : Provider) (ownerId : String) (isEligible : Bool) :
    Sound (acquire provider ownerId isEligible s) := by
  have hanswered : ∀ answer, (∀ lease, answer = Answer.granted lease → s.waiters provider = []) → Queued _ :=
    fun answer hgranted => @Queued.askAnswered s ⟨s.requests.length, provider, ownerId⟩ answer h.queued rfl hgranted
  have hleased : Leased { s with requests := s.requests ++ [⟨s.requests.length, provider, ownerId⟩] } :=
    h.leased.of_eq rfl rfl rfl
  rw [ProviderWork.acquire]
  dsimp only
  split
  · rename_i active howner
    split
    · exact ⟨hleased.of_eq rfl rfl rfl, hanswered (.held active) nofun, h.noneStranded⟩
    · refine ⟨hleased.of_eq rfl rfl rfl, h.queued.askWaiting rfl, fun p hidle => ?_⟩
      have hp : p ≠ provider := fun hp => by
        rw [hp] at hidle
        cases howner.symm.trans hidle
      exact (Function.update_of_ne hp ..).trans (h.noneStranded p hidle)
  · rename_i hidle
    split
    · have hqueued := hanswered (.granted ⟨s.leases.length, provider, ownerId⟩) fun _ _ => h.noneStranded provider hidle
      refine ⟨hleased.grant hidle, hqueued.of_eq rfl rfl rfl, ?_⟩
      intro p hp
      by_cases heq : p = provider
      · subst heq
        cases (Function.update_self ..).symm.trans hp
      · exact h.noneStranded p ((Function.update_of_ne heq ..).symm.trans hp)
    · exact ⟨hleased.of_eq rfl rfl rfl, hanswered .refused nofun, h.noneStranded⟩

theorem Sound.cancelIn (h : Sound s) (ownerId : String) (provider : Provider) : Sound (cancelIn ownerId s provider) where
  leased := h.leased.of_eq rfl rfl rfl
  queued := h.queued.cancelIn ownerId provider
  noneStranded p hidle := by
    have hnone := h.noneStranded p hidle
    by_cases hp : p = provider
    · subst hp
      have hself : (ProviderWork.cancelIn ownerId s p).waiters p = (s.waiters p).filter (·.ownerId ≠ ownerId) :=
        Function.update_self ..
      rw [hself, hnone, List.filter_nil]
    · exact (Function.update_of_ne hp ..).trans hnone

/-- Every call keeps the invariant. -/
theorem Sound.perform (h : Sound s) (action : Action) : Sound (perform s action) := by
  cases action with
  | acquire provider ownerId isEligible => exact h.acquire provider ownerId isEligible
  | release lease isEligible => exact h.release lease isEligible
  | cancel ownerId => exact ((h.cancelIn ownerId .chatgpt).cancelIn ownerId .gemini).cancelIn ownerId .grok

theorem Sound.run (actions : List Action) : Sound (run actions) := by
  induction actions using List.reverseRecOn with
  | nil => exact Sound.empty
  | append_singleton actions action ih =>
    rw [ProviderWork.run, List.foldl_append]
    exact ih.perform action

/-- A call has been answered once, or it waits. -/
theorem Queued.count_eq (h : Queued s) {request : Request} (hrequest : request ∈ s.requests) :
    s.answered.count request.call + (s.waiters request.provider).count request = 1 := by
  rcases h.settled request hrequest with hdone | hwaits
  · have hnot : request ∉ s.waiters request.provider := fun hmem => h.unanswered _ request hmem hdone
    rw [List.count_eq_one_of_mem h.once hdone, List.count_eq_zero_of_not_mem hnot]
  · have hnodup : (s.waiters request.provider).Nodup :=
      List.Pairwise.imp (fun {first second} hlt (heq : first = second) => Nat.ne_of_lt hlt (congrArg Request.call heq))
        (h.sorted request.provider)
    rw [List.count_eq_zero_of_not_mem (h.unanswered _ request hwaits), List.count_eq_one_of_mem hnodup hwaits]

/-- What the coordinator promises of a state: one owner for a provider, grants in the order of arrival among those that are
still eligible, one answer for each call that does not wait, nobody waiting for nothing, and no effect of releasing a lease
that is not the owner's. -/
structure Coordinated (s : State) : Prop where
  oneOwner : ∀ first ∈ s.leases, ∀ second ∈ s.leases, first ∉ s.released → second ∉ s.released →
    first.provider = second.provider → first = second
  ownerHolds : ∀ provider lease, s.owners provider = some lease ↔
    lease ∈ s.leases ∧ lease.provider = provider ∧ lease ∉ s.released
  inOrder : InOrder s.requests s.answers
  handedOver : ∀ (lease : Lease) (isEligible : Request → Bool), s.owners lease.provider = some lease →
    let queue := s.waiters lease.provider
    let turnedAway := (queue.takeWhile (!isEligible ·)).map fun waiter : Request => (waiter.call, Answer.refused)
    let idle := { s.vacate lease with answers := s.answers ++ turnedAway }
    release lease isEligible s =
      match queue.dropWhile (!isEligible ·) with
      | [] => idle.setWaiters lease.provider []
      | waiter :: rest => (idle.grant waiter).setWaiters lease.provider rest
  answeredOnce : ∀ request ∈ s.requests,
    s.answered.count request.call + (s.waiters request.provider).count request = 1
  noneStranded : ∀ provider, s.owners provider = none → s.waiters provider = []
  unchanged : ∀ (lease : Lease) (isEligible : Request → Bool), s.owners lease.provider ≠ some lease →
    release lease isEligible s = s

/-- **The provider work queue.** Whatever the calls were, and whoever was eligible when asked. -/
theorem work_queue (actions : List Action) : Coordinated (run actions) where
  oneOwner first hfirst second hsecond hheld hheld' hsame := by
    have hleased := (Sound.run actions).leased
    have howner := hleased.held first hfirst hheld
    rw [hsame, hleased.held second hsecond hheld'] at howner
    exact (Option.some.inj howner).symm
  ownerHolds provider lease := by
    have hleased := (Sound.run actions).leased
    refine ⟨hleased.owner provider lease, fun ⟨hmem, hprovider, hreleased⟩ => ?_⟩
    rw [← hprovider]
    exact hleased.held lease hmem hreleased
  inOrder := (Sound.run actions).queued.ordered
  handedOver lease isEligible howner := by
    rw [release_of_owner (Sound.run actions).leased howner, grantNext, handOver_eq]
    rfl
  answeredOnce _ hrequest := (Sound.run actions).queued.count_eq hrequest
  noneStranded := (Sound.run actions).noneStranded
  unchanged _ isEligible hother := release_of_not_owner (Sound.run actions).leased hother isEligible

end Calls

end ProviderWork

end AuraCall.AccountMirror
