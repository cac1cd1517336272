import PackageInstaller.Proofs.Anchors
import PackageInstaller.Proofs.Values

/-! The target declarations of a manifest, told in pieces: which calls they are, how they name their
targets, and which of them are found. -/

namespace PackageInstaller.Manifest

variable {ps : List Piece}

/-- A target declaration among the pieces, with what stands between its parentheses. -/
structure Call where
  occurrence : Occurrence
  body : List Piece

def Call.span (call : Call) : Span :=
  ⟨call.occurrence.span.start, call.occurrence.span.stop + (textOf call.body).length + 1⟩

def naming (b : List Piece) : Option Naming := (contents b).map namingIn

def callOf (s : Site) : Option Call := (interior? [')'] s.inside).map (⟨s.occurrence, ·⟩)

def targetSites (ps : List Piece) : List Site := sitesFrom .targetDeclaration [] 0 none ps

/-- The calls that declare targets, of those left when the last one ended at `outer` and the names in
`seen` are taken. -/
def located (outer : Nat) (seen : List Text) : List Call → Option (List (Text × Call))
  | [] => some []
  | call :: rest =>
    if call.span.start < outer then located outer seen rest
    else
      match naming call.body with
      | none => none
      | some .nameless => located outer seen rest
      | some .notLiteral => located outer seen rest
      | some (.named name) =>
        if seen.elem name then located call.span.stop seen rest
        else (located call.span.stop (name :: seen) rest).map ((name, call) :: ·)

def targetOf (entry : Text × Call) : Target :=
  ⟨entry.1, entry.2.occurrence.capture.getD [], entry.2.span⟩

/-- A call stands among the pieces, after `a` and its word `w`. -/
structure Stands (ps : List Piece) (call : Call) (a : List Piece) (w : Text) (z : List Piece) :
    Prop where
  pieces : ps = a ++ (chars ('.' :: w) ++ .char '(' :: (call.body ++ .char ')' :: z))
  ordinary : ∀ c ∈ w, Ordinary c
  balanced : Balanced call.body
  span : call.occurrence.span = ⟨(textOf a).length, (textOf a).length + (w.length + 2)⟩
  kind : ∃ kind : TargetKind, call.occurrence.capture = some kind.word ∧
    ∀ r, targetLength? ('.' :: w ++ '(' :: r) = some (w.length + 2, kind)

lemma exists_stands {s : Site} {call : Call} (hl : Lexed ps) (hs : s ∈ targetSites ps)
    (hc : callOf s = some call) : ∃ a w z, Stands ps call a w z := by
  obtain ⟨b, hb, rfl⟩ := Option.map_eq_some_iff.mp hc
  obtain ⟨z, hz, hbal⟩ := (interior?_iff (o := '(') rfl).mp hb
  obtain ⟨a, -, w, before, -, hw, hps, hspan, hm⟩ := exists_of_mem_sitesFrom targetDeclaration_calls
    (by rwa [List.append_nil]) hs
  rw [List.append_nil] at hps
  refine ⟨a, w, z, by rw [hps, hz]; rfl, hw, hbal, by simpa using hspan, ?_⟩
  have hk : ∀ r, Anchor.targetDeclaration.matchHead? before ('.' :: w ++ '(' :: r) =
      some (w.length + 2, s.occurrence.capture) := fun r =>
    (targetDeclaration_calls.opener (o := '(') before _ r _ rfl).trans hm
  simp only [Anchor.matchHead?, Option.map_eq_some_iff] at hk
  obtain ⟨⟨n, kind⟩, hn, he⟩ := hk []
  obtain ⟨rfl, he⟩ := Prod.mk.inj he
  refine ⟨kind, he.symm, fun r => ?_⟩
  obtain ⟨⟨n', kind'⟩, hn', he'⟩ := hk r
  obtain ⟨rfl, he'⟩ := Prod.mk.inj he'
  rw [hn']
  congr 2
  have hword : kind'.word = kind.word := Option.some.inj (he'.trans he.symm)
  cases kind <;> cases kind' <;> first | rfl | simp [TargetKind.word] at hword

variable {call : Call} {a z : List Piece} {w : Text}

lemma length_before_paren (a : List Piece) (w : Text) :
    (textOf (a ++ chars ('.' :: w))).length = (textOf a).length + (w.length + 1) := by
  simp

lemma Stands.opened (h : Stands ps call a w z) :
    ps = (a ++ chars ('.' :: w)) ++ .char '(' :: (call.body ++ .char ')' :: z) := by
  rw [List.append_assoc]
  exact h.pieces

lemma Stands.opener (h : Stands ps call a w z) :
    call.occurrence.opener = (textOf (a ++ chars ('.' :: w))).length := by
  rw [Occurrence.opener, h.span, length_before_paren]
  simp only
  omega

lemma callSpan_stands (hl : Lexed ps) (h : Stands ps call a w z) :
    callSpan (textOf ps) call.occurrence = .ok call.span := by
  have hi := (interior?_iff (o := '(') rfl).mpr ⟨z, rfl, h.balanced⟩
  have hlex : Lexed (call.body ++ .char ')' :: z) := by
    rw [h.opened] at hl
    exact hl.right.tail
  have hf := (findClosing_iff (a := a ++ chars ('.' :: w)) hlex (o := '(') rfl).mpr ⟨_, hi, rfl⟩
  rw [← h.opened, ← h.opener] at hf
  rw [callSpan, hf]
  simp only [Except.map, Call.span, Occurrence.opener, h.span, Except.ok.injEq, Interval.mk.injEq, true_and]
  omega

lemma Stands.arguments (h : Stands ps call a w z) : targetArguments? (textOf ps) call.span =
    (splitArguments (textOf ps) call.occurrence.opener).map some := by
  obtain ⟨kind, -, hk⟩ := h.kind
  have hs : (textOf ps).slice call.span.start call.span.stop =
      '.' :: w ++ '(' :: (textOf call.body ++ [')']) := by
    have hm := slice_mid (textOf a) ('.' :: w ++ '(' :: (textOf call.body ++ [')'])) (textOf z)
    have hstop : call.span.stop =
        (textOf a).length + ('.' :: w ++ '(' :: (textOf call.body ++ [')'])).length := by
      simp [Call.span, h.span]
      omega
    have htext : textOf ps =
        textOf a ++ ('.' :: w ++ '(' :: (textOf call.body ++ [')'])) ++ textOf z := by
      rw [h.pieces]
      simp [Piece.text]
    have hstart : call.span.start = (textOf a).length := by rw [Call.span, h.span]
    rw [hstop, hstart, htext]
    exact hm
  rw [targetArguments?, hs, hk]
  simp only [Call.span, Occurrence.opener, h.span, Nat.add_assoc]

lemma targetArguments?_stands (hl : Lexed ps) (h : Stands ps call a w z) :
    ∃ r, Listed ps (a ++ chars ('.' :: w)) call.body r ∧
      targetArguments? (textOf ps) call.span = r.map some :=
  ⟨_, splitArguments_listed hl (o := '(') rfl h.balanced h.opened, by rw [h.arguments, h.opener]⟩

lemma namingOf_stands (hl : Lexed ps) (h : Stands ps call a w z) :
    Told (naming call.body) (namingOf (textOf ps) call.span) := by
  obtain ⟨r, hr, ht⟩ := targetArguments?_stands hl h
  rw [namingOf, ht, naming]
  rcases hr with ⟨hn, pos, rfl⟩ | ⟨args, cs, hargs, rfl⟩
  · rw [hn]
    exact ⟨pos, rfl⟩
  · rw [hargs.elements]
    have hfind := find?_reads hargs.reads nameLabel
    simp only [Except.map, bind, Except.bind, Option.bind_some, ArgumentList.find?, Told,
      Option.map_some, namingIn]
    generalize args.items.find? (·.label = some nameLabel) = item at hfind ⊢
    generalize labelled nameLabel cs = c at hfind ⊢
    cases hfind with
    | none => rfl
    | some hread =>
      simp only [valueAt?_reads hread hl]
      cases stringOf (valueOf _) <;> rfl

/-- The calls of all target declarations, the nested ones included. -/
def Declares (ps : List Piece) (calls : List Call) : Prop :=
  List.Forall₂ (fun s call => callOf s = some call) (targetSites ps) calls

lemma Declares.stands {calls : List Call} (h : Declares ps calls) (hl : Lexed ps)
    (hc : call ∈ calls) : ∃ a w z, Stands ps call a w z := by
  obtain ⟨hlen, hget⟩ := List.forall₂_iff_get.mp h
  obtain ⟨i, hi, rfl⟩ := List.mem_iff_getElem.mp hc
  have hi' : i < (targetSites ps).length := by omega
  exact exists_stands hl (List.getElem_mem hi') (hget i hi' hi)

lemma Declares.occurrences {calls : List Call} (h : Declares ps calls) :
    (targetSites ps).map (·.occurrence) = calls.map (·.occurrence) := by
  unfold Declares at h
  generalize targetSites ps = sites at h ⊢
  induction h with
  | nil => rfl
  | cons hc _ ih =>
    obtain ⟨b, -, rfl⟩ := Option.map_eq_some_iff.mp hc
    rw [List.map_cons, List.map_cons, ih]

lemma locateFrom_located (hl : Lexed ps) {calls : List Call} (outer : Nat) (seen : List Text)
    (hs : ∀ call ∈ calls, ∃ a w z, Stands ps call a w z) :
    Told ((located outer seen calls).map (List.map targetOf))
      (locateFrom (textOf ps) outer seen (calls.map (·.occurrence))).outcome := by
  induction calls generalizing outer seen with
  | nil => rfl
  | cons call rest ih =>
    obtain ⟨a, w, z, h⟩ := hs call List.mem_cons_self
    have ih := fun outer seen => ih outer seen fun c hc => hs c (List.mem_cons_of_mem _ hc)
    have hstart : call.occurrence.span.start = call.span.start := rfl
    rw [List.map_cons, locateFrom, located, Attempt.bind_outcome, Attempt.ofExcept_outcome,
      callSpan_stands hl h, hstart]
    simp only [Except.bind]
    split_ifs with ho
    · exact ih outer seen
    · have hn := namingOf_stands hl h
      rw [Attempt.bind_outcome, Attempt.ofExcept_outcome]
      cases hnam : naming call.body with
      | none =>
        rw [hnam] at hn
        obtain ⟨pos, hn⟩ := hn
        rw [hn]
        exact ⟨pos, rfl⟩
      | some nm =>
        rw [hnam] at hn
        rw [hn]
        cases nm with
        | nameless => exact ih outer seen
        | notLiteral => exact ih outer seen
        | named name =>
          simp only [Except.bind]
          split_ifs with hname
          · exact ih _ seen
          · rw [Attempt.bind_outcome]
            have hrest := ih call.span.stop (name :: seen)
            cases hlo : located call.span.stop (name :: seen) rest with
            | none =>
              rw [hlo] at hrest
              obtain ⟨pos, hrest⟩ := hrest
              rw [hrest]
              exact ⟨pos, rfl⟩
            | some found =>
              rw [hlo] at hrest
              rw [hrest]
              rfl

lemma exists_opener_of_site {s : Site} (hl : Lexed ps) (hs : s ∈ targetSites ps) :
    ∃ a, ps = a ++ .char '(' :: s.inside ∧ s.occurrence.opener = (textOf a).length := by
  obtain ⟨a, -, w, before, -, hw, hps, hsp, -⟩ := exists_of_mem_sitesFrom targetDeclaration_calls
    (by rwa [List.append_nil]) hs
  rw [List.append_nil] at hps
  refine ⟨a ++ chars ('.' :: w), by rw [hps]; simp [chars], ?_⟩
  rw [Occurrence.opener, hsp, length_before_paren]
  simp only
  omega

lemma exists_callOf {s : Site} {span : Span} (hl : Lexed ps) (hs : s ∈ targetSites ps)
    (h : callSpan (textOf ps) s.occurrence = .ok span) : ∃ call, callOf s = some call := by
  obtain ⟨a, hps, hop⟩ := exists_opener_of_site hl hs
  rw [callSpan, map_eq_ok] at h
  obtain ⟨n, hn, -⟩ := h
  rw [hop, hps] at hn
  have hlex : Lexed s.inside := by
    rw [hps] at hl
    exact hl.right.tail
  obtain ⟨b, hb, -⟩ := (findClosing_iff hlex (o := '(') rfl).mp hn
  exact ⟨⟨s.occurrence, b⟩, by rw [callOf, hb]; rfl⟩

lemma exists_calls {sites : List Site} {outer : Nat} {seen : List Text} {ts : List Target}
    (hl : Lexed ps) (hs : ∀ s ∈ sites, s ∈ targetSites ps)
    (h : (locateFrom (textOf ps) outer seen (sites.map (·.occurrence))).outcome = .ok ts) :
    ∃ calls, List.Forall₂ (fun s call => callOf s = some call) sites calls := by
  induction sites generalizing outer seen ts with
  | nil => exact ⟨[], .nil⟩
  | cons s rest ih =>
    rw [List.map_cons, locateFrom, Attempt.bind_eq_ok] at h
    obtain ⟨span, hspan, h⟩ := h
    obtain ⟨call, hcall⟩ := exists_callOf hl (hs s List.mem_cons_self) hspan
    have onward : ∀ {outer seen ts}, (locateFrom (textOf ps) outer seen
        (rest.map (·.occurrence))).outcome = .ok ts →
          ∃ calls, List.Forall₂ (fun s call => callOf s = some call) (s :: rest) calls := by
      intro outer seen ts h
      obtain ⟨calls, hf⟩ := ih (fun t ht => hs t (List.mem_cons_of_mem _ ht)) h
      exact ⟨call :: calls, .cons hcall hf⟩
    split_ifs at h
    · exact onward h
    · obtain ⟨nm, -, h⟩ := Attempt.bind_eq_ok.mp h
      cases nm with
      | nameless => exact onward h
      | notLiteral => exact onward h
      | named name =>
        simp only at h
        split_ifs at h
        · exact onward h
        · obtain ⟨later, h, -⟩ := Attempt.bind_eq_ok.mp h
          exact onward h

/-- The targets are found exactly where every declaration is closed and can be read for its name. -/
theorem locateTargets_iff (hl : Lexed ps) {ts : List Target} :
    (locateTargets (textOf ps)).outcome = .ok ts ↔
      ∃ calls found, Declares ps calls ∧ located 0 [] calls = some found ∧ ts = found.map targetOf := by
  rw [locateTargets, Attempt.bind_outcome, Attempt.ofExcept_outcome,
    codeOccurrences_textOf targetDeclaration_calls hl]
  simp only [Except.bind]
  constructor
  · intro h
    obtain ⟨calls, hd⟩ := exists_calls hl (fun s hs => hs) h
    have hd' : Declares ps calls := hd
    change (locateFrom (textOf ps) 0 [] ((targetSites ps).map (·.occurrence))).outcome = _ at h
    rw [hd'.occurrences] at h
    have htold := locateFrom_located hl 0 [] fun call hc => hd'.stands hl hc
    cases hlo : located 0 [] calls with
    | none =>
      rw [hlo] at htold
      obtain ⟨pos, htold⟩ := htold
      rw [htold] at h
      simp at h
    | some found =>
      rw [hlo] at htold
      exact ⟨calls, found, hd', hlo, Except.ok.inj (h.symm.trans htold)⟩
  · rintro ⟨calls, found, hd, hlo, rfl⟩
    change (locateFrom (textOf ps) 0 [] ((targetSites ps).map (·.occurrence))).outcome = _
    have htold := locateFrom_located hl 0 [] fun call hc => hd.stands hl hc
    rw [hlo] at htold
    rw [hd.occurrences]
    exact htold

end PackageInstaller.Manifest
