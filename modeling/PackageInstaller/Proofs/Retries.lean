import Mathlib.Data.List.TakeWhile
import PackageInstaller.Catalog

/-! Sending a request again: how often, after which waits, and which of the replies decides. -/

namespace PackageInstaller

/-- A text is the name of an owner or of a repository. -/
def Repository.Name (t : Text) : Prop := t ≠ [] ∧ ∀ c ∈ t, c.isAlphanum = true ∨ c = '_' ∨ c = '.' ∨ c = '-'

/-- A text is an owner and a repository with a slash between. -/
def Repository.Pair (t : Text) : Prop :=
  ∃ owner repository, t = owner ++ '/' :: repository ∧ Name owner ∧ Name repository

namespace Catalog

/-- A failure of the server or of the way to it, which may have passed at the next attempt. -/
def Reply.isTransient : Reply → Bool
  | .response status _ => 500 ≤ status
  | .transport _ _ => true
  | .exchange _ _ => false

/-- What is told of a reply to the last attempt. -/
def Reply.fault? : Reply → Option LastFault
  | .response status _ => some (.status status)
  | .transport kind message => some (.transport kind message)
  | .exchange _ _ => none

/-- The number of replies before the first that is no transient failure. -/
def setbacks (replies : List Reply) : Nat := (replies.takeWhile Reply.isTransient).length

/-- The reply that decides: the first that is no transient failure, but the third at the latest. -/
def decider? (replies : List Reply) : Option Reply := replies[min (setbacks replies) 2]?

/-- What a request comes to by the reply that decides. -/
inductive Reply.Settles (request : Request) : Reply → Except LookupFailure Bytes → Prop
  | accepted {status : Int} {body : Bytes} : status < 400 → Settles request (.response status body) (.ok body)
  | refused {status : Int} {body : Bytes} : 400 ≤ status → status < 500 →
    Settles request (.response status body) (.error (.catalog (.refused request.path status)))
  | unreachable {reply : Reply} {fault : LastFault} : reply.isTransient = true → reply.fault? = some fault →
    Settles request reply (.error (.catalog (.unreachable request.path maxAttempts fault)))
  | exchange {kind : ExchangeKind} {message : Text} :
    Settles request (.exchange kind message) (.error (.exchange kind message))

variable {request : Request} {attempt : Nat} {reply : Reply} {replies faults rest : List Reply} {query : Query}
  {name : Text} {fault : LastFault}

lemma Reply.Settles.of_transient {sent : Except LookupFailure Bytes} (h : reply.Settles request sent)
    (ht : reply.isTransient = true) : ∃ fault, reply.fault? = some fault ∧
      sent = .error (.catalog (.unreachable request.path maxAttempts fault)) := by
  cases h with
  | accepted hok =>
    have := of_decide_eq_true ht
    omega
  | refused _ hlt => exact absurd (of_decide_eq_true ht) (Int.not_le.mpr hlt)
  | unreachable _ hfault => exact ⟨_, hfault, rfl⟩
  | exchange => simp [Reply.isTransient] at ht

lemma verdictOf_transient (request : Request) (h : reply.isTransient = true) :
    ∃ fault, reply.fault? = some fault ∧ verdictOf request reply = .retry fault := by
  cases reply with
  | response status body =>
    have : 500 ≤ status := of_decide_eq_true h
    refine ⟨.status status, rfl, ?_⟩
    rw [verdictOf, if_neg (by omega), if_neg (by omega)]
  | transport kind message => exact ⟨.transport kind message, rfl, rfl⟩
  | exchange kind message => simp [Reply.isTransient] at h

lemma send_retry (request : Request) (rest : List Reply) (h : reply.isTransient = true)
    (hmore : attempt < maxAttempts) :
    (send request attempt (reply :: rest)).traffic =
        (send request (attempt + 1) rest).traffic.after request [delayAfter attempt] ∧
      (send request attempt (reply :: rest)).outcome = (send request (attempt + 1) rest).outcome := by
  obtain ⟨fault, -, hverdict⟩ := verdictOf_transient request h
  rw [send, hverdict]
  simp only [if_pos hmore]
  exact ⟨rfl, rfl⟩

/-- Transient failures, while there are attempts left, do no more than to cost an attempt and a wait. -/
lemma send_faults (request : Request) (rest : List Reply) (attempt : Nat)
    (h : ∀ reply ∈ faults, reply.isTransient = true) (hmore : attempt + faults.length ≤ maxAttempts) :
    (send request attempt (faults ++ rest)).traffic =
        ⟨List.replicate faults.length request ++ (send request (attempt + faults.length) rest).traffic.requests,
          (List.range faults.length).map (fun i => delayAfter (attempt + i)) ++
            (send request (attempt + faults.length) rest).traffic.delays,
          (send request (attempt + faults.length) rest).traffic.unused⟩ ∧
      (send request attempt (faults ++ rest)).outcome = (send request (attempt + faults.length) rest).outcome := by
  induction faults generalizing attempt with
  | nil => exact ⟨rfl, rfl⟩
  | cons reply faults ih =>
    obtain ⟨hreply, hfaults⟩ := List.forall_mem_cons.mp h
    rw [List.length_cons] at hmore
    obtain ⟨htraffic, houtcome⟩ := ih (attempt + 1) hfaults (by omega)
    have hnow : attempt < maxAttempts := by omega
    obtain ⟨hfirst, hresult⟩ := send_retry request (faults ++ rest) hreply hnow
    have hlast : attempt + 1 + faults.length = attempt + (faults.length + 1) := by omega
    rw [hlast] at htraffic houtcome
    rw [List.cons_append, hfirst, hresult, htraffic, houtcome, List.length_cons]
    refine ⟨?_, rfl⟩
    have hwaits : (fun i => delayAfter (attempt + 1 + i)) = (fun i => delayAfter (attempt + i)) ∘ Nat.succ := by
      funext i
      exact congrArg delayAfter (by omega)
    rw [Traffic.after, List.range_succ_eq_map, List.map_cons, List.map_map, hwaits]
    rfl

lemma send_settled (h : reply.isTransient = false) :
    (send request attempt (reply :: rest)).traffic = ⟨[request], [], rest⟩ ∧
      reply.Settles request (send request attempt (reply :: rest)).outcome := by
  cases reply with
  | response status body =>
    have hlt : status < 500 := Int.not_le.mp (of_decide_eq_false h)
    by_cases hok : status < 400
    · have hverdict : verdictOf request (.response status body) = .accepted body := if_pos hok
      rw [send, hverdict]
      exact ⟨rfl, .accepted hok⟩
    · have hverdict : verdictOf request (.response status body) =
          .rejected (.catalog (.refused request.path status)) := by
        rw [verdictOf, if_neg hok, if_pos hlt]
      rw [send, hverdict]
      exact ⟨rfl, .refused (Int.not_lt.mp hok) hlt⟩
  | transport kind message => simp [Reply.isTransient] at h
  | exchange kind message => exact ⟨rfl, .exchange⟩

lemma send_last (h : reply.isTransient = true) :
    (send request maxAttempts (reply :: rest)).traffic = ⟨[request], [], rest⟩ ∧
      reply.Settles request (send request maxAttempts (reply :: rest)).outcome := by
  obtain ⟨fault, hfault, hverdict⟩ := verdictOf_transient request h
  rw [send, hverdict]
  simp only [Nat.lt_irrefl, if_false]
  exact ⟨rfl, .unreachable h hfault⟩

lemma transient_of_mem_take {n : Nat} (hn : n ≤ setbacks replies) (h : reply ∈ replies.take n) :
    reply.isTransient = true := by
  have hhead : replies.take n <+: replies.takeWhile Reply.isTransient :=
    List.prefix_of_prefix_length_le (List.take_prefix n replies) (List.takeWhile_prefix _)
      (Nat.le_trans (List.length_take_le n replies) hn)
  exact List.mem_takeWhile_imp (hhead.subset h)

lemma not_transient_of_setbacks (h : replies[setbacks replies]? = some reply) : reply.isTransient = false := by
  induction replies with
  | nil => simp at h
  | cons first replies ih =>
    rw [setbacks, List.takeWhile_cons] at h
    split_ifs at h with hfirst
    · exact ih h
    · obtain rfl := Option.some.inj h
      exact Bool.not_eq_true _ ▸ hfirst

lemma setbacks_le_length (replies : List Reply) : setbacks replies ≤ replies.length :=
  (List.takeWhile_prefix _).length_le

/-- The requests that are sent for a sequence of replies, the waits between them, and what comes of the reply that
decides. -/
theorem send_decided (request : Request) (h : decider? replies = some reply) :
    (send request 1 replies).traffic = ⟨List.replicate (min (setbacks replies) 2 + 1) request,
        (List.range (min (setbacks replies) 2)).map (Nat.pow 2), replies.drop (min (setbacks replies) 2 + 1)⟩ ∧
      reply.Settles request (send request 1 replies).outcome := by
  have hfaults : ∀ reply ∈ replies.take (min (setbacks replies) 2), reply.isTransient = true := fun _ =>
    transient_of_mem_take (Nat.min_le_left _ _)
  have hthird : reply.isTransient = true → min (setbacks replies) 2 = 2 := by
    intro htransient
    by_contra hfew
    rw [decider?, Nat.min_eq_left (by omega)] at h
    rw [not_transient_of_setbacks h] at htransient
    simp at htransient
  have htwo : min (setbacks replies) 2 ≤ 2 := Nat.min_le_right _ _
  rw [decider?] at h
  generalize min (setbacks replies) 2 = n at *
  obtain ⟨hlt, rfl⟩ := List.getElem?_eq_some_iff.mp h
  have hsplit : replies.take n ++ replies[n] :: replies.drop (n + 1) = replies := by
    rw [← List.drop_eq_getElem_cons hlt, List.take_append_drop]
  have hlen : (replies.take n).length = n := List.length_take_of_le (Nat.le_of_lt hlt)
  have hmax : maxAttempts = 3 := rfl
  obtain ⟨htraffic, houtcome⟩ := send_faults request (replies[n] :: replies.drop (n + 1)) 1 hfaults (by omega)
  have hend : (send request (1 + n) (replies[n] :: replies.drop (n + 1))).traffic =
        ⟨[request], [], replies.drop (n + 1)⟩ ∧
      replies[n].Settles request (send request (1 + n) (replies[n] :: replies.drop (n + 1))).outcome := by
    cases htransient : replies[n].isTransient with
    | false => exact send_settled htransient
    | true =>
      obtain rfl := hthird htransient
      exact send_last htransient
  have hwaits : (fun i => delayAfter (1 + i)) = Nat.pow 2 := by
    funext i
    rw [delayAfter, Nat.add_sub_cancel_left]
  rw [hlen, hsplit, hend.1, List.append_nil, hwaits] at htraffic
  rw [hlen, hsplit] at houtcome
  rw [htraffic, houtcome, List.replicate_succ']
  exact ⟨rfl, hend.2⟩

/-- If the replies run out before one of them decides, nothing comes of the request. -/
lemma send_undecided (request : Request) (h : decider? replies = none) :
    (send request 1 replies).outcome = .error .unanswered := by
  have hfew : replies.length ≤ min (setbacks replies) 2 := List.getElem?_eq_none_iff.mp h
  have hmax : maxAttempts = 3 := rfl
  have hfaults : ∀ reply ∈ replies, reply.isTransient = true := by
    intro reply hreply
    rw [← List.take_of_length_le (Nat.le_refl replies.length)] at hreply
    exact transient_of_mem_take (by omega) hreply
  have houtcome := (send_faults request [] 1 hfaults (by omega)).2
  rw [List.append_nil] at houtcome
  rw [houtcome]
  rfl

lemma isName_iff {t : Text} : Repository.isName t = true ↔ Repository.Name t := by
  rw [Repository.isName, Bool.and_eq_true, List.all_eq_true]
  simp [Repository.Name, Repository.isNameChar, or_assoc]

lemma isOwnerAndName_iff : Repository.isOwnerAndName name = true ↔ Repository.Pair (Text.strip name) := by
  have hslash : ∀ {owner}, Repository.Name owner → ∀ c ∈ owner, decide (c ≠ '/') = true := by
    intro owner howner c hc
    refine decide_eq_true ?_
    rintro rfl
    exact absurd (howner.2 _ hc) (by decide)
  rw [Repository.isOwnerAndName]
  generalize Text.strip name = t
  constructor
  · intro h
    cases hrest : t.dropWhile (· ≠ '/') with
    | nil =>
      rw [hrest] at h
      simp at h
    | cons c repository =>
      simp only [hrest, Bool.and_eq_true, isName_iff] at h
      obtain rfl : c = '/' := by
        have := List.head?_dropWhile_not (· ≠ '/') t
        rw [hrest] at this
        simpa using this
      refine ⟨t.takeWhile (· ≠ '/'), repository, ?_, h⟩
      rw [← hrest, List.takeWhile_append_dropWhile]
  · rintro ⟨owner, repository, rfl, howner, hrepository⟩
    rw [List.takeWhile_append_of_pos (hslash howner), List.dropWhile_append_of_pos (hslash howner)]
    simp [isName_iff, howner, hrepository]

def flaky : List Reply := [.response 503 [], .transport .readTimeout [], .response 404 [], .response 200 []]

def down : List Reply := [.response 500 [], .response 502 [], .transport .connectError [], .response 200 []]

end Catalog

end PackageInstaller
