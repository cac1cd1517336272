import Mathlib.Data.List.Forall2
import PackageInstaller.Proofs.Pins
import PackageInstaller.Proofs.Retries

/-! What a look-up comes to: the reference that the payload of the deciding reply tells, or a failure, and which of the
failures are not the catalog's. -/

namespace PackageInstaller.Catalog

open Manifest (bind_eq_ok map_eq_ok mapError_eq_ok)

/-- An object has a value under a name, or under another one that stands for it where the name is not there. -/
def Named (members : List (Text × Json)) (name : Text) (otherName : Option Text) (value : Json) : Prop :=
  Json.Holds members name value ∨ (∀ value, ¬Json.Holds members name value) ∧
    ∃ other, otherName = some other ∧ Json.Holds members other value

/-- A payload tells the URL and the version of one package. -/
def TellsPackage (payload : Json) (r : Reference) : Prop :=
  ∃ members, payload = .object members ∧ Named members "ghUrl".toList (some "gh_url".toList) (.string r.url) ∧
    Json.Holds members "version".toList (.string r.version)

/-- A hit of a search tells the URL and the version of one package, both in its source. -/
def TellsHit (hit : Json) (r : Reference) : Prop :=
  ∃ members inner, hit = .object members ∧ Named members "_source".toList (some "source".toList) (.object inner) ∧
    Json.Holds inner "git_clone_url".toList (.string r.url) ∧ Json.Holds inner "latest_version".toList (.string r.version)

/-- A payload lists the hits of a search, in the list within the object within the data. -/
def ListsHits (payload : Json) (values : List Json) : Prop :=
  ∃ members data hits, payload = .object members ∧ Json.Holds members "data".toList (.object data) ∧
    Json.Holds data "hits".toList (.object hits) ∧ Json.Holds hits "hits".toList (.array values)

/-- A payload answers a query by a reference: for a search, by that of the first hit, where each of the hits tells one. -/
def Tells (payload : Json) (r : Reference) : Query → Prop
  | .package _ => TellsPackage payload r
  | .search _ => ∃ first rest, ListsHits payload (first :: rest) ∧ TellsHit first r ∧
    ∀ hit ∈ rest, ∃ other, TellsHit hit other

/-- The failures that are not the catalog's: one of the exchange as such, a body of too many levels, and that the replies
run out. -/
inductive Escapes (replies : List Reply) : LookupFailure → Prop
  | exchange {kind : ExchangeKind} {message : Text} : decider? replies = some (.exchange kind message) →
    Escapes replies (.exchange kind message)
  | levels {status : Int} {body : Bytes} {cause : Json.ReadError} {container : String} :
    decider? replies = some (.response status body) → status < 400 → Json.readBody body = .error (.malformed cause) →
    cause.flaw = .tooDeep container → Escapes replies (.beyondLimits cause)
  | silence : decider? replies = none → Escapes replies .unanswered

variable {α β : Type} {json payload value : Json} {members : List (Text × Json)} {name : Text} {otherName : Option Text}
  {r : Reference} {query : Query} {replies : List Reply}

lemma named_none : Named members name none value ↔ Json.Holds members name value := by
  simp [Named]

lemma string_eq_ok {t : Text} : string json = .ok t ↔ json = .string t := by
  cases json <;> simp [string, problem]

lemma object_eq_ok {f : List (Text × Json) → Checked α} {a : α} :
    object f json = .ok a ↔ ∃ members, json = .object members ∧ f members = .ok a := by
  cases json <;> simp [object, problem]

lemma within_eq_ok {part : Part} {c : Checked α} {a : α} : within part c = .ok a ↔ c = .ok a := mapError_eq_ok

lemma both_eq_ok {x : Checked α} {y : Checked β} {a : α} {b : β} :
    both x y = .ok (a, b) ↔ x = .ok a ∧ y = .ok b := by
  cases x <;> cases y <;> simp [both]

lemma lastMember?_eq_none :
    Json.lastMember? members name = none ↔ ∀ value, ¬Json.Holds members name value := by
  rw [Option.eq_none_iff_forall_ne_some]
  exact forall_congr' fun value => not_congr Json.lastMember?_eq_some

lemma member_eq_ok {f : Json → Checked α} {a : α} :
    member name otherName f members = .ok a ↔ ∃ value, Named members name otherName value ∧ f value = .ok a := by
  cases hfound : Json.lastMember? members name with
  | some found =>
    have hholds := Json.lastMember?_eq_some.mp hfound
    rw [member, hfound]
    simp only [within_eq_ok]
    constructor
    · exact fun h => ⟨found, .inl hholds, h⟩
    · rintro ⟨value, hvalue | ⟨hnone, -⟩, h⟩
      · rwa [hholds.unique hvalue]
      · exact absurd hholds (hnone found)
  | none =>
    have hnone := lastMember?_eq_none.mp hfound
    rw [member, hfound]
    cases otherName with
    | none => simp [Named, hnone, within, problem, Except.mapError]
    | some other =>
      cases hother : Json.lastMember? members other with
      | some found =>
        have hholds := Json.lastMember?_eq_some.mp hother
        simp only [Option.bind_some, hother, Option.map_some, within_eq_ok]
        constructor
        · exact fun h => ⟨found, .inr ⟨hnone, other, rfl, hholds⟩, h⟩
        · rintro ⟨value, hvalue | ⟨-, other', hother', hvalue⟩, h⟩
          · exact absurd hvalue (hnone value)
          · obtain rfl := Option.some.inj hother'
            rwa [hholds.unique hvalue]
      | none =>
        have hnothing := lastMember?_eq_none.mp hother
        simp [Named, hnone, hnothing, hother, within, problem, Except.mapError]

lemma member_none_eq_ok {f : Json → Checked α} {a : α} :
    member name none f members = .ok a ↔ ∃ value, Json.Holds members name value ∧ f value = .ok a := by
  simp only [member_eq_ok, named_none]

lemma member_string_eq_ok {t : Text} :
    member name otherName string members = .ok t ↔ Named members name otherName (.string t) := by
  rw [member_eq_ok]
  simp only [string_eq_ok, exists_eq_right]

lemma itemsFrom_eq_ok {f : Json → Checked α} {index : Nat} {values : List Json} {as : List α} :
    itemsFrom f index values = .ok as ↔ List.Forall₂ (fun value a => f value = .ok a) values as := by
  induction values generalizing index as with
  | nil =>
    rw [List.forall₂_nil_left_iff, itemsFrom, Except.ok.injEq]
    exact eq_comm
  | cons value values ih =>
    rw [List.forall₂_cons_left_iff, itemsFrom, map_eq_ok]
    constructor
    · rintro ⟨⟨a, as⟩, h, rfl⟩
      obtain ⟨ha, has⟩ := both_eq_ok.mp h
      exact ⟨a, as, within_eq_ok.mp ha, ih.mp has, rfl⟩
    · rintro ⟨a, as, ha, has, rfl⟩
      exact ⟨(a, as), both_eq_ok.mpr ⟨within_eq_ok.mpr ha, ih.mpr has⟩, rfl⟩

lemma list_eq_ok {f : Json → Checked α} {as : List α} :
    list f json = .ok as ↔ ∃ values, json = .array values ∧ List.Forall₂ (fun value a => f value = .ok a) values as := by
  cases json <;> simp [list, problem, itemsFrom_eq_ok]

lemma reference_eq_ok {url version : List (Text × Json) → Checked Text} : reference url version json = .ok r ↔
    ∃ members, json = .object members ∧ url members = .ok r.url ∧ version members = .ok r.version := by
  rw [reference, object_eq_ok]
  refine exists_congr fun members => and_congr_right fun _ => ?_
  rw [map_eq_ok]
  constructor
  · rintro ⟨⟨u, v⟩, h, rfl⟩
    exact both_eq_ok.mp h
  · exact fun h => ⟨(r.url, r.version), both_eq_ok.mpr h, rfl⟩

lemma package_eq_ok : package payload = .ok r ↔ TellsPackage payload r := by
  rw [package, reference_eq_ok]
  simp only [member_string_eq_ok, named_none, TellsPackage]

lemma source_eq_ok : source json = .ok r ↔ ∃ inner, json = .object inner ∧
    Json.Holds inner "git_clone_url".toList (.string r.url) ∧
      Json.Holds inner "latest_version".toList (.string r.version) := by
  rw [source, reference_eq_ok]
  simp only [member_string_eq_ok, named_none]

lemma hit_eq_ok : hit json = .ok r ↔ TellsHit json r := by
  rw [hit, object_eq_ok]
  simp only [member_eq_ok, source_eq_ok, TellsHit]
  constructor
  · rintro ⟨members, rfl, _, hsource, inner, rfl, hurl, hversion⟩
    exact ⟨members, inner, rfl, hsource, hurl, hversion⟩
  · rintro ⟨members, inner, rfl, hsource, hurl, hversion⟩
    exact ⟨members, rfl, _, hsource, inner, rfl, hurl, hversion⟩

lemma searchHits_eq_ok {found : List Reference} : searchHits payload = .ok found ↔
    ∃ values, ListsHits payload values ∧ List.Forall₂ TellsHit values found := by
  have hhit : (fun value r => hit value = .ok r) = TellsHit := funext₂ fun _ _ => propext hit_eq_ok
  simp only [searchHits, object_eq_ok, member_none_eq_ok, list_eq_ok, hhit, ListsHits]
  constructor
  · rintro ⟨members, rfl, _, hdata, data, rfl, _, hhits, hits, rfl, _, hvalues, values, rfl, hfound⟩
    exact ⟨values, ⟨members, data, hits, rfl, hdata, hhits, hvalues⟩, hfound⟩
  · rintro ⟨values, ⟨members, data, hits, rfl, hdata, hhits, hvalues⟩, hfound⟩
    exact ⟨members, rfl, _, hdata, data, rfl, _, hhits, hits, rfl, _, hvalues, values, rfl, hfound⟩

/-- The payloads that are taken are those that answer the query. -/
theorem interpret_eq_ok : interpret query payload = .ok r ↔ Tells payload r query := by
  cases query with
  | package name => rw [interpret, invalid, mapError_eq_ok, package_eq_ok, Tells]
  | search words =>
    rw [interpret, bind_eq_ok, Tells]
    simp only [invalid, mapError_eq_ok, searchHits_eq_ok]
    constructor
    · rintro ⟨found, ⟨values, hlists, hall⟩, h⟩
      cases hall with
      | nil => simp at h
      | @cons first r' rest found hfirst hrest =>
        obtain rfl : r' = r := Except.ok.inj h
        exact ⟨first, rest, hlists, hfirst, exists_forall₂.mp ⟨found, hrest⟩⟩
    · rintro ⟨first, rest, hlists, hfirst, hrest⟩
      obtain ⟨found, hfound⟩ := exists_forall₂.mpr hrest
      exact ⟨r :: found, ⟨first :: rest, hlists, .cons hfirst hfound⟩, rfl⟩

lemma interpret_catalog {e : LookupFailure} (h : interpret query payload = .error e) : ∃ c, e = .catalog c := by
  cases query with
  | package name =>
    cases hp : package payload with
    | ok r => simp [interpret, invalid, hp, Except.mapError] at h
    | error problems =>
      simp only [interpret, invalid, hp, Except.mapError, Except.error.injEq] at h
      exact ⟨_, h.symm⟩
  | search words =>
    rw [interpret] at h
    cases hs : searchHits payload with
    | ok found =>
      rw [hs] at h
      cases found with
      | nil => exact ⟨_, (Except.error.inj h).symm⟩
      | cons first rest => simp [invalid, Except.mapError, bind, Except.bind, pure, Except.pure] at h
    | error problems =>
      rw [hs] at h
      exact ⟨_, (Except.error.inj h).symm⟩

lemma unreadable_cases (query : Query) (fault : Json.BodyError) :
    (∃ cause container, fault = .malformed cause ∧ cause.flaw = .tooDeep container ∧
      unreadable query fault = .beyondLimits cause) ∨
    (∀ cause container, fault = .malformed cause → cause.flaw ≠ .tooDeep container) ∧
      ∃ c, unreadable query fault = .catalog c := by
  cases fault with
  | undecodable cause => exact .inr ⟨by simp, _, rfl⟩
  | malformed cause =>
    by_cases hdeep : ∃ container, cause.flaw = .tooDeep container
    · obtain ⟨container, hflaw⟩ := hdeep
      refine .inl ⟨cause, container, rfl, hflaw, ?_⟩
      simp only [unreadable, hflaw]
    · refine .inr ⟨fun other container h hflaw => ?_, .unreadable query.request.path (.malformed cause), ?_⟩
      · obtain rfl := Json.BodyError.malformed.inj h
        exact hdeep ⟨container, hflaw⟩
      · simp only [unreadable]
        split
        · rename_i container hflaw
          exact absurd ⟨container, hflaw⟩ hdeep
        · rfl

lemma interpretBody_eq_ok {body : Bytes} : interpretBody query body = .ok r ↔
    ∃ payload, Json.readBody body = .ok payload ∧ Tells payload r query := by
  rw [interpretBody, bind_eq_ok]
  simp only [mapError_eq_ok, interpret_eq_ok]

lemma interpretBody_escapes {body : Bytes} {e : LookupFailure} :
    (interpretBody query body = .error e ∧ ∀ c, e ≠ .catalog c) ↔ ∃ cause container,
      Json.readBody body = .error (.malformed cause) ∧ cause.flaw = .tooDeep container ∧ e = .beyondLimits cause := by
  rw [interpretBody]
  cases Json.readBody body with
  | ok payload =>
    constructor
    · rintro ⟨h, hno⟩
      obtain ⟨c, hc⟩ := interpret_catalog h
      exact absurd hc (hno c)
    · rintro ⟨cause, container, h, -, -⟩
      simp at h
  | error fault =>
    change (Except.error (unreadable query fault) = .error e ∧ _) ↔ _
    rw [Except.error.injEq]
    constructor
    · rintro ⟨rfl, hno⟩
      rcases unreadable_cases query fault with ⟨cause, container, rfl, hflaw, he⟩ | ⟨-, c, hc⟩
      · exact ⟨cause, container, rfl, hflaw, he⟩
      · exact absurd hc (hno c)
    · rintro ⟨cause, container, hfault, hflaw, rfl⟩
      obtain rfl := Except.error.inj hfault
      rcases unreadable_cases query (.malformed cause) with ⟨other, _, hother, -, he⟩ | ⟨hno, -⟩
      · obtain rfl := Json.BodyError.malformed.inj hother
        exact ⟨he, by simp⟩
      · exact absurd hflaw (hno cause container rfl)

section Settles

variable {request : Request} {reply : Reply} {sent : Except LookupFailure Bytes}
  {f : Bytes → Except LookupFailure Reference} {e : LookupFailure} (h : reply.Settles request sent)
include h

lemma Reply.Settles.bind_eq_ok : sent.bind f = .ok r ↔
    ∃ status body, reply = .response status body ∧ status < 400 ∧ f body = .ok r := by
  cases h with
  | accepted hok =>
    constructor
    · exact fun h => ⟨_, _, rfl, hok, h⟩
    · rintro ⟨status, body, heq, -, h⟩
      obtain ⟨rfl, rfl⟩ := Reply.response.inj heq
      exact h
  | refused hge _ =>
    refine ⟨by simp [Except.bind], ?_⟩
    rintro ⟨status, body, heq, hlt, -⟩
    obtain ⟨rfl, rfl⟩ := Reply.response.inj heq
    exact absurd hlt (Int.not_lt.mpr hge)
  | unreachable htransient _ =>
    refine ⟨by simp [Except.bind], ?_⟩
    rintro ⟨status, body, rfl, hlt, -⟩
    have := of_decide_eq_true htransient
    omega
  | exchange => simp [Except.bind]

lemma Reply.Settles.bind_escapes : (sent.bind f = .error e ∧ ∀ c, e ≠ .catalog c) ↔
    (∃ kind message, reply = .exchange kind message ∧ e = .exchange kind message) ∨
      ∃ status body, reply = .response status body ∧ status < 400 ∧ f body = .error e ∧ ∀ c, e ≠ .catalog c := by
  cases h with
  | accepted hok =>
    constructor
    · exact fun ⟨h, hno⟩ => .inr ⟨_, _, rfl, hok, h, hno⟩
    · rintro (⟨kind, message, heq, -⟩ | ⟨status, body, heq, -, h⟩)
      · simp at heq
      · obtain ⟨rfl, rfl⟩ := Reply.response.inj heq
        exact h
  | refused hge _ =>
    constructor
    · rintro ⟨h, hno⟩
      exact absurd (Except.error.inj h).symm (hno _)
    · rintro (⟨kind, message, heq, -⟩ | ⟨status, body, heq, hlt, -⟩)
      · simp at heq
      · obtain ⟨rfl, rfl⟩ := Reply.response.inj heq
        exact absurd hlt (Int.not_lt.mpr hge)
  | unreachable htransient _ =>
    constructor
    · rintro ⟨h, hno⟩
      exact absurd (Except.error.inj h).symm (hno _)
    · rintro (⟨kind, message, rfl, -⟩ | ⟨status, body, rfl, hlt, -⟩)
      · simp [Reply.isTransient] at htransient
      · have := of_decide_eq_true htransient
        omega
  | @exchange kind message =>
    constructor
    · rintro ⟨h, -⟩
      exact .inl ⟨kind, message, rfl, (Except.error.inj h).symm⟩
    · rintro (⟨kind', message', heq, rfl⟩ | ⟨status, body, heq, -⟩)
      · obtain ⟨rfl, rfl⟩ := Reply.exchange.inj heq
        exact ⟨rfl, by simp⟩
      · simp at heq

end Settles

/-- What a look-up comes to. It is a reference exactly if the deciding reply is a response whose payload answers the query
by this reference. Of its failures exactly those that escape are not the catalog's. A reply for each attempt is enough
that one decides. -/
theorem resolve_outcome (name : Text) (replies : List Reply) :
    (∀ r, (resolve name replies).outcome = .ok r ↔ ∃ status body payload,
      decider? replies = some (.response status body) ∧ status < 400 ∧ Json.readBody body = .ok payload ∧
        Tells payload r (queryFor name)) ∧
    (∀ e, ((resolve name replies).outcome = .error e ∧ ∀ c, e ≠ .catalog c) ↔ Escapes replies e) ∧
    (maxAttempts ≤ replies.length → ∃ reply, decider? replies = some reply) := by
  have houtcome : (resolve name replies).outcome =
      (send (queryFor name).request 1 replies).outcome.bind (interpretBody (queryFor name)) := rfl
  rw [houtcome]
  cases hdecides : decider? replies with
  | none =>
    rw [send_undecided _ hdecides]
    refine ⟨fun r => by simp [Except.bind], fun e => ?_, fun hmany => ?_⟩
    · constructor
      · rintro ⟨h, -⟩
        obtain rfl := Except.error.inj h
        exact .silence hdecides
      · intro h
        cases h with
        | silence => exact ⟨rfl, by simp⟩
        | exchange h => simp [hdecides] at h
        | levels h => simp [hdecides] at h
    · have hmax : maxAttempts = 3 := rfl
      have := List.getElem?_eq_none_iff.mp hdecides
      omega
  | some reply =>
    have hsettles := (send_decided (queryFor name).request hdecides).2
    refine ⟨fun r => ?_, fun e => ?_, fun _ => ⟨reply, rfl⟩⟩
    · rw [hsettles.bind_eq_ok]
      simp only [Option.some.injEq, interpretBody_eq_ok, exists_and_left]
    · rw [hsettles.bind_escapes]
      simp only [interpretBody_escapes]
      constructor
      · rintro (⟨kind, message, rfl, rfl⟩ | ⟨status, body, rfl, hlt, cause, container, hread, hflaw, rfl⟩)
        · exact .exchange hdecides
        · exact .levels hdecides hlt hread hflaw
      · intro h
        cases h with
        | exchange h => exact .inl ⟨_, _, Option.some.inj (hdecides.symm.trans h), rfl⟩
        | levels h hlt hread hflaw =>
          exact .inr ⟨_, _, Option.some.inj (hdecides.symm.trans h), hlt, _, _, hread, hflaw, rfl⟩
        | silence h => simp [hdecides] at h

def foundBody : Bytes := Encoding.encodeUtf8
  "\x7b\"data\":\x7b\"hits\":\x7b\"hits\":[\x7b\"_source\":\x7b\"git_clone_url\":\"u\",\"latest_version\":\"1\"\x7d\x7d]\x7d\x7d\x7d".toList

def foundLate : List Reply := [.response 502 [], .response 200 foundBody, .response 404 []]

def redirectMessage : Text := "Exceeded maximum allowed redirects.".toList

def redirected : List Reply := List.replicate 3 (.exchange .tooManyRedirects redirectMessage)

theorem resolve_outcome_foundLate :
    (∃ payload, Json.readBody foundBody = .ok payload ∧
      Tells payload ⟨['u'], ['1']⟩ (queryFor "console".toList)) ∧
    (∃ reply, decider? foundLate = some reply) ∧
    ∃ e, (resolve "console".toList redirected).outcome = .error e ∧ ∀ c, e ≠ .catalog c := by
  have hfound : (resolve "console".toList foundLate).outcome =
      .ok ⟨['u'], ['1']⟩ := by decide +kernel
  obtain ⟨hok, -, hdecided⟩ := resolve_outcome "console".toList foundLate
  obtain ⟨status, body, payload, hreply, -, hread, htells⟩ := (hok _).mp hfound
  have hdecides : decider? foundLate = some (.response 200 foundBody) := by decide +kernel
  have hbody : body = foundBody := (Reply.response.inj (Option.some.inj (hreply.symm.trans hdecides))).2
  rw [hbody] at hread
  have hescapes : Escapes redirected (.exchange .tooManyRedirects redirectMessage) := .exchange (by decide +kernel)
  exact ⟨⟨payload, hread, htells⟩, hdecided (by decide), _,
    ((resolve_outcome "console".toList redirected).2.1 _).mpr hescapes⟩

def garbledMessage : Text := "Error -3 while decompressing data: incorrect header check".toList

def garbled : List Reply := List.replicate 3 (.exchange .decodingError garbledMessage)

/-- Not every look-up that fails does so with an error of the catalog: content that cannot be decoded goes out as the
failure of the exchange that it is. -/
theorem not_resolve_catalog : ¬∀ (name : Text) (replies : List Reply), maxAttempts ≤ replies.length →
    (∃ r, (resolve name replies).outcome = .ok r) ∨ ∃ c, (resolve name replies).outcome = .error (.catalog c) := by
  intro h
  have hgarbled : (resolve "a/b".toList garbled).outcome =
      .error (.exchange .decodingError garbledMessage) := by decide +kernel
  rcases h "a/b".toList garbled (by decide) with ⟨r, hr⟩ | ⟨c, hc⟩
  · rw [hgarbled] at hr
    simp at hr
  · rw [hgarbled] at hc
    simp at hc

end PackageInstaller.Catalog
