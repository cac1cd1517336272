import PackageInstaller.Proofs.Wiring

/-! Editing sessions: requests in any order, each working on the text that the one before it left. At every
moment the text declares what it declared at first and what was added since, and its targets are the same. -/

namespace PackageInstaller.Manifest

inductive Request where
  | add (reference : Reference)
  | depend (target identifier : Text)
  | prepare (reference : Reference) (select : List Text → List Text)
  | wire (identifier : Text) (targets : List Text)

def Request.OneLine : Request → Prop
  | .add reference => Manifest.OneLine reference
  | .depend _ identifier => '\n' ∉ identifier
  | .prepare reference _ => Manifest.OneLine reference
  | .wire identifier _ => '\n' ∉ identifier

structure Session where
  text : Text
  declared : List Text

namespace Session

/-- A failed request leaves the text, but for a wiring that failed on the way, which leaves the targets
before the failure wired. -/
def step (s : Session) : Request → Session
  | .add reference =>
    match (addPackage s.text reference).outcome with
    | .ok t => ⟨t, s.declared ++ [reference.url]⟩
    | .error _ => s
  | .depend target identifier =>
    match (addTargetDependency s.text target identifier).outcome with
    | .ok t => { s with text := t }
    | .error _ => s
  | .prepare reference select =>
    match (Manifest.prepare s.text reference select).outcome with
    | .ok prepared => ⟨prepared.manifest, s.declared ++ [reference.url]⟩
    | .error _ => s
  | .wire identifier targets =>
    match (Manifest.wire s.text identifier targets).outcome with
    | .ok t => { s with text := t }
    | .error (.wiring e) => { s with text := e.manifest }
    | .error (.edit _) => s

def run (s : Session) (requests : List Request) : Session := requests.foldl step s

/-- The name and the kind that a target is found under. -/
def labels (found : List (Text × Call)) : List (Text × Text) :=
  found.map fun s => (s.1, s.2.occurrence.capture.getD [])

/-- What holds of every session that began with these URLs and targets. -/
structure Sound (urls : List Text) (targets : List (Text × Text)) (s : Session) : Prop where
  shows : ∃ ps found, s.text = textOf ps ∧ Shown ps found ∧ labels found = targets ∧
    Presents ps (urls ++ s.declared) ∧ Receptive ps
  fresh : ∀ url ∈ s.declared, Repository.canonicalUrl url ∉ urls.map Repository.canonicalUrl
  distinct : (s.declared.map Repository.canonicalUrl).Nodup

variable {urls : List Text} {targets : List (Text × Text)} {s : Session} {reference : Reference}
  {found found' : List (Text × Call)}

lemma labels_alike (h : List.Forall₂ Alike found found') : labels found' = labels found := by
  induction h with
  | nil => rfl
  | cons hs _ ih =>
    have ih : List.map _ _ = List.map _ _ := ih
    rw [labels, labels, List.map_cons, List.map_cons, hs.name, hs.kind, ih]

lemma Sound.added {t : Text} (h : Sound urls targets s) (hone : OneLine reference)
    (hok : (addPackage s.text reference).outcome = .ok t) :
    Sound urls targets ⟨t, s.declared ++ [reference.url]⟩ := by
  obtain ⟨ps, found, ht, hshown, hlabels, hp, hc⟩ := h.shows
  rw [ht] at hok
  have hnew : Repository.canonicalUrl reference.url ∉ (urls ++ s.declared).map Repository.canonicalUrl := by
    rw [← addPackage_refused hshown.lexed hp, hok]
    simp [Refused]
  rw [List.map_append, List.mem_append, not_or] at hnew
  obtain ⟨a, w, b, z, hh⟩ := holds_of_addPackage hshown.lexed hok
  obtain ⟨ps', found', us, rfl, hshown', hus, hp', hc', hf⟩ := addPackage_ok hshown hh hc hone hok
  obtain rfl := Except.ok.inj ((hus.declaredUrls hshown.lexed).symm.trans (hp.declaredUrls hshown.lexed))
  refine ⟨⟨ps', found', rfl, hshown', ?_, List.append_assoc urls _ _ ▸ hp', hc'⟩, ?_, ?_⟩
  · rw [labels_alike (hf.imp fun s s' h => h.1), hlabels]
  · intro url hurl
    rcases List.mem_append.mp hurl with hurl | hurl
    · exact h.fresh url hurl
    · rw [List.mem_singleton.mp hurl]
      exact hnew.1
  · rw [List.map_append, List.map_singleton, List.nodup_append]
    refine ⟨h.distinct, by simp, fun u hu v hv huv => hnew.2 ?_⟩
    rw [← List.mem_singleton.mp hv, ← huv]
    exact hu

lemma Sound.edited {t : Text} (h : Sound urls targets s) (hkeep : ∀ ps found, s.text = textOf ps →
      Shown ps found → ∃ ps' found', t = textOf ps' ∧ Shown ps' found' ∧ List.Forall₂ Alike found found' ∧
        Keeps ps ps') : Sound urls targets { s with text := t } := by
  obtain ⟨ps, found, ht, hshown, hlabels, hp, hc⟩ := h.shows
  obtain ⟨ps', found', rfl, hshown', hf, hkeeps⟩ := hkeep ps found ht hshown
  obtain ⟨hp', hc'⟩ := hkeeps _ hp
  exact ⟨⟨ps', found', rfl, hshown', (labels_alike hf).trans hlabels, hp', hc' hc⟩, h.fresh, h.distinct⟩

lemma Sound.wired {t identifier : Text} {wired names : List Text} (h : Sound urls targets s)
    (hid : '\n' ∉ identifier) (hok : (wireFrom identifier wired s.text names).outcome = .ok t) :
    Sound urls targets { s with text := t } := by
  refine h.edited fun ps found ht hshown => ?_
  rw [ht] at hok
  obtain ⟨ps', found', hps', hshown', hf, -, hp⟩ := wireFrom_ok hshown hid hok
  exact ⟨ps', found', hps', hshown', hf.imp fun s s' h => h.alike, hp⟩

/-- One request keeps the session sound. -/
theorem Sound.step {request : Request} (h : Sound urls targets s) (hone : request.OneLine) :
    Sound urls targets (s.step request) := by
  cases request with
  | add reference =>
    rw [Session.step]
    cases hout : (addPackage s.text reference).outcome with
    | ok t => exact h.added hone hout
    | error e => exact h
  | depend target identifier =>
    rw [Session.step]
    cases hout : (addTargetDependency s.text target identifier).outcome with
    | ok t =>
      refine h.edited fun ps found ht hshown => ?_
      rw [ht] at hout
      obtain ⟨ps', found', hps', hshown', hf, hp⟩ := addTargetDependency_ok hshown hone hout
      exact ⟨ps', found', hps', hshown', hf.imp fun s s' h => h.alike, hp⟩
    | error e => exact h
  | prepare reference select =>
    rw [Session.step]
    cases hout : (Manifest.prepare s.text reference select).outcome with
    | ok prepared =>
      rw [Manifest.prepare, Attempt.bind_eq_ok] at hout
      obtain ⟨names, -, hout⟩ := hout
      exact h.added hone (declareFor_eq_ok hout).2.2
    | error e => exact h
  | wire identifier names =>
    rw [Session.step]
    cases hout : (Manifest.wire s.text identifier names).outcome with
    | ok t => exact h.wired hone hout
    | error err =>
      cases err with
      | edit e => exact h
      | wiring e =>
        obtain ⟨before, target, after, t, cause, -, hbefore, -, he⟩ := wireFrom_error hout
        split_ifs at he
        obtain rfl := WireError.wiring.inj he
        exact h.wired hone (hbefore [])

theorem Sound.run {requests : List Request} (h : Sound urls targets s)
    (hone : ∀ request ∈ requests, request.OneLine) : Sound urls targets (s.run requests) := by
  induction requests generalizing s with
  | nil => exact h
  | cons request requests ih =>
    exact ih (h.step (hone request List.mem_cons_self)) fun r hr => hone r (List.mem_cons_of_mem _ hr)

end Session

lemma prepare_refused {t : Text} {names : List Text} {select : List Text → List Text}
    {reference : Reference} (hnames : (selectableTargets t).outcome = .ok names)
    (hsub : ∀ name ∈ select names, name ∈ names) :
    Refused (prepare t reference select).outcome ↔ Refused (addPackage t reference).outcome := by
  have hn : (select names).find? (fun name => !names.elem name) = none :=
    List.find?_eq_none.mpr fun name hname => by simpa using hsub name hname
  rw [prepare, Attempt.bind_outcome, hnames]
  simp only [Except.bind, declareFor, hn]
  rw [Attempt.bind_outcome, Attempt.tell_outcome]
  simp only [Except.bind]
  rw [Attempt.bind_outcome]
  cases (addPackage t reference).outcome <;> simp [Refused, Except.bind]

/-- After any requests the text declares the packages that it declared at first and then the added ones,
no two of them the same package, and its targets are those it had. A package is refused exactly if it is one
of those declared at that moment. -/
theorem session_sound {t : Text} {ts : List Target} {urls : List Text} {requests : List Request}
    (htargets : (locateTargets t).outcome = .ok ts) (hurls : declaredUrls t = .ok urls)
    (hclear : ClearList t) (hone : ∀ request ∈ requests, request.OneLine) :
    let s := Session.run ⟨t, []⟩ requests
    declaredUrls s.text = .ok (urls ++ s.declared) ∧
      (∃ ts', (locateTargets s.text).outcome = .ok ts' ∧
        ts'.map (fun t => (t.name, t.kind)) = ts.map fun t => (t.name, t.kind)) ∧
      (∀ reference, Refused (addPackage s.text reference).outcome ↔
        Repository.canonicalUrl reference.url ∈ (urls ++ s.declared).map Repository.canonicalUrl) ∧
      (∀ reference select names, (selectableTargets s.text).outcome = .ok names →
        (∀ name ∈ select names, name ∈ names) → (Refused (prepare s.text reference select).outcome ↔
          Repository.canonicalUrl reference.url ∈ (urls ++ s.declared).map Repository.canonicalUrl)) ∧
      (∀ url ∈ s.declared, Repository.canonicalUrl url ∉ urls.map Repository.canonicalUrl) ∧
      (s.declared.map Repository.canonicalUrl).Nodup := by
  obtain ⟨ps, found, rfl, hshown, rfl⟩ := locateTargets_eq_ok.mp htargets
  have hstart : Session.Sound urls (Session.labels found) ⟨textOf ps, []⟩ := by
    refine ⟨⟨ps, found, rfl, hshown, rfl, ?_, receptive_of_clearList hshown.lexed hclear⟩, by simp, by simp⟩
    rw [List.append_nil]
    exact presents_of_declaredUrls hshown.lexed hurls
  intro s
  obtain ⟨⟨ps', found', ht, hshown', hlabels, hp, -⟩, hfresh, hdistinct⟩ := hstart.run hone
  change s.text = textOf ps' at ht
  have hrefused : ∀ reference, Refused (addPackage s.text reference).outcome ↔
      Repository.canonicalUrl reference.url ∈ (urls ++ s.declared).map Repository.canonicalUrl := by
    intro reference
    rw [ht]
    exact addPackage_refused hshown'.lexed hp
  refine ⟨?_, ⟨found'.map targetOf, ?_, ?_⟩, hrefused, ?_, hfresh, hdistinct⟩
  · rw [ht]
    exact hp.declaredUrls hshown'.lexed
  · rw [ht]
    exact locateTargets_eq_ok.mpr ⟨ps', found', rfl, hshown', rfl⟩
  · rw [List.map_map, List.map_map]
    exact hlabels
  · intro reference select names hnames hsub
    rw [prepare_refused hnames hsub, hrefused]

theorem session_sound_twoTargets :
    let s := Session.run ⟨twoTargets, []⟩ [.add newPackage, .wire ['N'] [['A'], ['B']]]
    declaredUrls s.text = .ok [newPackage.url] ∧ Refused (addPackage s.text newPackage).outcome := by
  have hurls : declaredUrls twoTargets = .ok [] := by decide +kernel
  have hclear : ClearList twoTargets := by decide +kernel
  have hlocated : (locateTargets twoTargets).outcome.isOk = true := by decide +kernel
  have hadded : (Session.run ⟨twoTargets, []⟩ [.add newPackage, .wire ['N'] [['A'], ['B']]]).declared =
      [newPackage.url] := by decide +kernel
  have hone : ∀ request ∈ [Request.add newPackage, .wire ['N'] [['A'], ['B']]], request.OneLine := by
    simp only [List.forall_mem_cons]
    exact ⟨⟨by decide +kernel, by decide +kernel⟩, by simp [Request.OneLine], by simp⟩
  cases htargets : (locateTargets twoTargets).outcome with
  | error e => simp [htargets, Except.isOk, Except.toBool] at hlocated
  | ok ts =>
    have h := session_sound htargets hurls hclear hone
    simp only [hadded, List.nil_append] at h
    exact ⟨h.1, (h.2.2.1 newPackage).mpr (List.mem_map_of_mem List.mem_cons_self)⟩

end PackageInstaller.Manifest
