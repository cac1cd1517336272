import PackageInstaller.Proofs.Additions

/-! Adding a dependency to a target changes one array. The other targets have the text they had, and stand
where they stood or as much further on as the text has grown; adding the dependency once more changes nothing. -/

namespace PackageInstaller.Manifest

/-- The target stands in `t'` as it does in `t`, as far from the end of the text. -/
structure Shifted (t t' : Text) (s s' : Target) : Prop where
  name : s'.name = s.name
  kind : s'.kind = s.kind
  start : s'.span.start + t.length = s.span.start + t'.length
  stop : s'.span.stop + t.length = s.span.stop + t'.length
  source : t'.slice s'.span.start s'.span.stop = t.slice s.span.start s.span.stop

/-- The array of the target is in `t'` that of `t` with the identifier as one more element, and the target
takes up what the text has grown by. -/
structure Appended (t t' identifier : Text) (array : ArgumentList) (found found' : Target) : Prop where
  name : found'.name = found.name
  kind : found'.kind = found.kind
  start : found'.span.start = found.span.start
  stop : found'.span.stop + t.length = found.span.stop + t'.length
  array : ∃ array', targetDependencies? t' found'.span = .ok (some array') ∧
    array'.shown t' = array.shown t ++ [(none, StringLiteral.encode identifier)] ∧
      array'.endsInComma = array.endsInComma

variable {ps a l r x z y d rest : List Piece} {w : Text} {call call' : Call} {es : List (List Piece)}
  {found : List (Text × Call)} {t t' target identifier : Text} {items : List Argument}

lemma Shows.exchange {b d' : List Piece} (h : Shows b y d rest) (hd : Balanced d') :
    Shows (y ++ .char '[' :: (d' ++ .char ']' :: rest)) y d' rest :=
  ⟨rfl, h.before, hd, h.argument⟩

lemma Shows.eq_interior {b y' d' rest' : List Piece} (h : Shows b y d rest) (h' : Shows b y' d' rest') :
    d' = d := by
  obtain ⟨cs, hcs, hd⟩ := h.named h.interior
  obtain ⟨cs', hcs', hd'⟩ := h'.named h'.interior
  rw [← h.pieces] at hcs
  rw [← h'.pieces, hcs] at hcs'
  obtain rfl := Option.some.inj hcs'
  exact Option.some.inj (hd'.symm.trans hd)

lemma exists_reads (hl : Lexed ps) (h : List.Forall₂ (Reads ps) items es) :
    (∃ item ∈ items, StringLiteral.valueAt? (textOf ps) item.value = some identifier) ↔
      ∃ c ∈ es, stringOf (valueOf c) = some identifier := by
  have hany : (items.any fun item => StringLiteral.valueAt? (textOf ps) item.value = some identifier) =
      es.any fun c => stringOf (valueOf c) = some identifier := any_reads hl h
  simpa using Bool.eq_iff_iff.mp hany

lemma Stands.array (h : Stands ps call a w z) (hl : Lexed ps) (hes : elementsOf call.body = some es) :
    ∃ y d rest list, Shows call.body y d rest ∧ Lists ps (a ++ chars ('.' :: w) ++ .char '(' :: y) d list es ∧
      targetDependencies? (textOf ps) call.span = .ok (some list) := by
  rcases targetDependencies?_stands hl h with ⟨hn, -⟩ | ⟨y, d, rest, es', list, hs, hes', hlist, harray⟩
  · simp [hn] at hes
  · obtain rfl := Option.some.inj (hes.symm.trans hes')
    exact ⟨y, d, rest, list, hs, hlist, harray⟩

lemma addTargetDependency_listed (h : Shown ps found) (hmem : (target, call) ∈ found)
    (hes : elementsOf call.body = some es) (hc : ∃ c ∈ es, stringOf (valueOf c) = some identifier) :
    (addTargetDependency (textOf ps) target identifier).outcome = .ok (textOf ps) := by
  have hadds := addTargetDependency_adds h (insertable_name List.not_mem_nil) target identifier
  have same : ∀ {call'}, (target, call') ∈ found → call' = call := fun hmem' =>
    congrArg Prod.snd (h.eq_of_name hmem hmem' rfl)
  generalize (addTargetDependency (textOf ps) target identifier).outcome = outcome at hadds ⊢
  cases hadds with
  | absent hn => exact absurd rfl (hn _ hmem)
  | broken hmem' hn =>
    rw [same hmem', hes] at hn
    simp at hn
  | listed => rfl
  | appended hmem' hes' hnone =>
    rw [same hmem', hes] at hes'
    obtain rfl := Option.some.inj hes'
    obtain ⟨c, hmem, hread⟩ := hc
    exact absurd hread (hnone c hmem)

variable {e : Splice} {f : Text → Text}

lemma Splice.length_source (e : Splice) : (textOf e.source).length + (textOf e.new).length =
    (textOf e.target).length + (textOf e.old).length := by
  simp only [Splice.source, Splice.target, textOf_append, List.length_append]
  omega

lemma Framed.shifted {s s' : Text × Call} (h : Framed e s.2 s'.2) (hname : s'.1 = s.1)
    (hs : (textOf (e.before ++ e.old)).length ≤ s.2.span.start) :
    Shifted (textOf e.source) (textOf e.target) (targetOf s) (targetOf s') := by
  obtain ⟨-, hstart, hstop⟩ := h.moved hs
  have hlen := e.length_source
  refine ⟨hname, ?_, ?_, ?_, (h.sameSource (.inr hs)).2⟩
  · simp only [targetOf, h.capture]
  · simp only [targetOf]
    omega
  · simp only [targetOf]
    omega

lemma Framed.appended {s s' : Text × Call} {list : ArgumentList} (h : Framed e s.2 s'.2)
    (hname : s'.1 = s.1) (hst : Stands e.source s.2 a w z) (hs : Shows s.2.body y d rest)
    {b : List Piece} (hlist : Lists e.source b d list es)
    (hin : Inserts e f (a ++ chars ('.' :: w) ++ .char '(' :: y) l r (rest ++ .char ')' :: z) '[' ']' es []
      (nameElement identifier))
    (hl : Lexed e.source) {a' z' : List Piece} {w' : Text} (hst' : Stands e.target s'.2 a' w' z') :
    Appended (textOf e.source) (textOf e.target) identifier list (targetOf s) (targetOf s') := by
  obtain ⟨hstart, hstop⟩ := hin.inside hst hs
  obtain ⟨hstart', hstop'⟩ := h.grown hstart hstop
  have hlen := e.length_source
  have hbody := h.edited hst hs hin hl
  obtain ⟨y', d', rest', list', hs', hlist', harray⟩ := hst'.array hin.lexed (elementsOf_edited hs hin hbody)
  rw [hbody] at hs'
  obtain rfl := (hs.exchange ((hin.left.append hin.even.new).append hin.right)).eq_interior hs'
  have hd := hin.interior (hs.within hst.opened)
  have hone : Lists e.source _ d list (es ++ []) := (List.append_nil es).symm ▸ hlist
  obtain ⟨hshown, hcomma⟩ := hone.inserted hlist' (by rw [hd, hin.separators])
  refine ⟨hname, ?_, hstart', ?_, list', harray, ?_, hcomma⟩
  · simp only [targetOf, h.capture]
  · simp only [targetOf]
    omega
  · have hall : (list.shown (textOf e.source)).length = es.length := by rw [hlist.shown, List.length_map]
    rw [hshown, ← hall, List.take_length, List.drop_length, entry, textOf_nameElement]
    rfl

lemma Shown.beside {us us' vs vs' : List (Text × Call)} {s : Text × Call} (h : Shown e.source (us ++ s :: vs))
    (hs : s.2.span.start < (textOf e.before).length ∧ (textOf (e.before ++ e.old)).length < s.2.span.stop)
    (hus : List.Forall₂ (fun s s' => s'.1 = s.1 ∧ Framed e s.2 s'.2) us us')
    (hvs : List.Forall₂ (fun s s' => s'.1 = s.1 ∧ Framed e s.2 s'.2) vs vs') :
    us' = us ∧ (∀ s ∈ us, (textOf e.target).slice s.2.span.start s.2.span.stop =
      (textOf e.source).slice s.2.span.start s.2.span.stop) ∧
        List.Forall₂ (Shifted (textOf e.source) (textOf e.target)) (vs.map targetOf) (vs'.map targetOf) := by
  obtain ⟨-, hrest, hapart⟩ := List.pairwise_append.mp h.apart
  have hbefore : ∀ s' ∈ us, s'.2.span.stop ≤ (textOf e.before).length := fun s' hs' =>
    Nat.le_trans (hapart s' hs' s List.mem_cons_self).1 (Nat.le_of_lt hs.1)
  have hafter : ∀ s' ∈ vs, (textOf (e.before ++ e.old)).length ≤ s'.2.span.start := fun s' hs' =>
    Nat.le_trans (Nat.le_of_lt hs.2) ((List.pairwise_cons.mp hrest).1 s' hs').1
  have hkept : List.Forall₂ (fun s s' => s = s') us us' := by
    refine (List.forall₂_and_left _ _ |>.mpr ⟨hbefore, hus⟩).imp fun s s' hss' => ?_
    exact Prod.ext hss'.2.1.symm (hss'.2.2.kept hss'.1).symm
  rw [List.forall₂_eq_eq_eq] at hkept
  subst hkept
  refine ⟨rfl, fun s hs => ?_, List.forall₂_map_left_iff.mpr (List.forall₂_map_right_iff.mpr ?_)⟩
  · obtain ⟨-, hframed⟩ : s.1 = s.1 ∧ Framed e s.2 s.2 := List.forall₂_same.mp hus s hs
    exact (hframed.sameSource (.inl (hbefore s hs))).2
  · refine (List.forall₂_and_left _ _ |>.mpr ⟨hafter, hvs⟩).imp fun s s' hss' => ?_
    exact hss'.2.2.shifted hss'.2.1 hss'.1

lemma located_split {us vs : List (Text × Call)} {s : Text × Call} (h : Shown ps (us ++ s :: vs)) :
    (locateTargets (textOf ps)).outcome = .ok (us.map targetOf ++ targetOf s :: vs.map targetOf) :=
  locateTargets_eq_ok.mpr ⟨ps, _, rfl, h, by rw [List.map_append, List.map_cons]⟩

/-- A dependency that was added is the last element of the array of its target. Nothing else has changed,
and it is not added once more. -/
theorem addTargetDependency_one_array (hid : '\n' ∉ identifier)
    (hok : (addTargetDependency t target identifier).outcome = .ok t') :
    ∃ before found after list, (locateTargets t).outcome = .ok (before ++ found :: after) ∧
      found.name = target ∧ targetDependencies? t found.span = .ok (some list) ∧
      ((∃ item ∈ list.items, StringLiteral.valueAt? t item.value = some identifier) → t' = t) ∧
      ((∀ item ∈ list.items, StringLiteral.valueAt? t item.value ≠ some identifier) →
        ∃ found' after', (locateTargets t').outcome = .ok (before ++ found' :: after') ∧
          (∀ s ∈ before, t'.slice s.span.start s.span.stop = t.slice s.span.start s.span.stop) ∧
          Appended t t' identifier list found found' ∧ List.Forall₂ (Shifted t t') after after') ∧
      (addTargetDependency t' target identifier).outcome = .ok t' := by
  obtain ⟨ts, -, -, hts, -⟩ := addTargetDependency_edits hok
  obtain ⟨ps, found, rfl, hshown, rfl⟩ := locateTargets_eq_ok.mp hts
  have hadds := addTargetDependency_adds hshown (insertable_name hid) target identifier
  rw [hok] at hadds
  cases hadds with
  | @listed call es hmem hes hlisted =>
    obtain ⟨a, w, z, hst⟩ := hshown.stands hmem
    obtain ⟨_, _, _, list, -, hreads, hlist⟩ := hst.array hshown.lexed hes
    obtain ⟨item, hitem, hvalue⟩ := (exists_reads hshown.lexed hreads.reads).mpr hlisted
    obtain ⟨us, vs, rfl⟩ := List.append_of_mem hmem
    exact ⟨us.map targetOf, targetOf (target, call), vs.map targetOf, list, located_split hshown, rfl, hlist,
      fun _ => rfl, fun hnone => absurd hvalue (hnone item hitem), hok⟩
  | @appended call es e f a l r y d rest z w hmem hes hnone hst hs hd hsource hin =>
    subst hsource
    rw [← textOf_nameElement, hin.places.target] at hok ⊢
    obtain ⟨y', d', rest', list, hs', hreads, hlist⟩ := hst.array hshown.lexed hes
    obtain rfl := hs.eq_interior hs'
    have hnew : ¬∃ item ∈ list.items, StringLiteral.valueAt? (textOf e.source) item.value = some identifier := by
      rw [exists_reads hshown.lexed hreads.reads]
      rintro ⟨c, hc, hvalue⟩
      exact hnone c hc hvalue
    obtain ⟨found', hshown', hfr⟩ := shown_target hin rfl (fun ho => absurd ho (by decide)) hshown
    obtain ⟨us, vs, rfl⟩ := List.append_of_mem hmem
    obtain ⟨us', s', vs', rfl, hus, ⟨hname, hframed⟩, hvs⟩ := forall₂_split hfr
    obtain ⟨rfl, hsame, hmoved⟩ := hshown.beside (hin.inside hst hs) hus hvs
    have hmem' : (target, s'.2) ∈ us' ++ s' :: vs' := by
      rw [← show s' = (target, s'.2) from Prod.ext hname rfl]
      exact List.mem_append_right _ List.mem_cons_self
    obtain ⟨a', w', z', hst'⟩ := hshown'.stands hmem'
    refine ⟨us'.map targetOf, targetOf (target, call), vs.map targetOf, list, located_split hshown, rfl, hlist,
      fun hex => absurd hex hnew, fun _ => ⟨targetOf s', vs'.map targetOf, located_split hshown', ?_,
        hframed.appended hname hst hs hreads hin hshown.lexed hst', hmoved⟩, ?_⟩
    · intro s hmem
      obtain ⟨s, hs, rfl⟩ := List.mem_map.mp hmem
      exact hsame s hs
    · exact addTargetDependency_listed hshown' hmem'
        (elementsOf_edited hs hin (hframed.edited hst hs hin hshown.lexed))
        ⟨nameElement identifier, by simp, stringOf_name hid⟩

def threeTargets : Text := ("Package(targets: [.target(name: \"A\", dependencies: []), .target(name: \"B\", " ++
  "dependencies: [\"A\", // one\n]), .target(name: \"C\", dependencies: [\"B\"])])").toList

theorem addTargetDependency_one_array_threeTargets : ∃ t' before found after list found' after',
    (addTargetDependency threeTargets ['B'] ['N']).outcome = .ok t' ∧
      (locateTargets threeTargets).outcome = .ok (before ++ found :: after) ∧ found.name = ['B'] ∧
        (locateTargets t').outcome = .ok (before ++ found' :: after') ∧
          Appended threeTargets t' ['N'] list found found' ∧
            List.Forall₂ (Shifted threeTargets t') after after' ∧
              (addTargetDependency t' ['B'] ['N']).outcome = .ok t' := by
  have hadded : (addTargetDependency threeTargets ['B'] ['N']).outcome.isOk = true := by decide +kernel
  have hnew : ((locateTargets threeTargets).outcome.toOption.getD []).all (fun s =>
      (targetDependencies? threeTargets s.span).toOption.join.toList.all fun list => list.items.all fun item =>
        StringLiteral.valueAt? threeTargets item.value ≠ some ['N']) = true := by decide +kernel
  obtain ⟨t', hok⟩ := isOk_iff.mp hadded
  obtain ⟨before, found, after, list, hts, hname, hlist, -, hnone, htwice⟩ :=
    addTargetDependency_one_array (by decide) hok
  obtain ⟨found', after', hts', -, happended, hshifted⟩ := hnone (by
    simp only [hts, Except.toOption, Option.getD_some, List.all_append, List.all_cons, Bool.and_eq_true,
      hlist, Option.join_some, Option.toList_some, List.all_nil, Bool.and_true, List.all_eq_true] at hnew
    exact fun item hitem => of_decide_eq_true (hnew.2.1 item hitem))
  exact ⟨t', before, found, after, list, found', after', hok, hts, hname, hts', happended, hshifted, htwice⟩

end PackageInstaller.Manifest
