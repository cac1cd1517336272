import PackageInstaller.Proofs.Layout
import PackageInstaller.Proofs.Packages
import PackageInstaller.Proofs.Rendered

/-! Adding a dependency to one target: what comes of it, and how the targets are found afterwards. -/

namespace PackageInstaller.Manifest

variable {ps a d z x : List Piece} {w : Text} {call call' : Call} {es : List (List Piece)}
  {items : List Argument}

lemma targetDependencies?_stands (hl : Lexed ps) (h : Stands ps call a w z) :
    (elementsOf call.body = none ∧ (targetDependencies? (textOf ps) call.span = .ok none ∨
      ∃ pos, targetDependencies? (textOf ps) call.span = .error (.emptyElement pos))) ∨
    ∃ y d rest es list, Shows call.body y d rest ∧ elementsOf call.body = some es ∧
      Lists ps (a ++ chars ('.' :: w) ++ .char '(' :: y) d list es ∧
        targetDependencies? (textOf ps) call.span = .ok (some list) := by
  obtain ⟨r, hr, ht⟩ := targetArguments?_stands hl h
  rw [targetDependencies?, ht, elementsOf]
  rcases hr with ⟨hn, pos, rfl⟩ | ⟨args, cs, hargs, rfl⟩
  · exact .inl ⟨by rw [hn]; rfl, .inr ⟨pos, rfl⟩⟩
  · rw [hargs.elements]
    simp only [Except.map, bind, Except.bind, Option.bind_some]
    rcases dependencyArray?_listed hargs hl rfl h.balanced h.opened with
      ⟨hn, hd⟩ | ⟨y, d, rest, hs, hshow, r, hr, hd⟩
    · exact .inl ⟨by rw [hn]; rfl, .inl hd⟩
    · rw [hd, hs]
      rcases hr with ⟨hn, pos, rfl⟩ | ⟨list, es, hlist, rfl⟩
      · exact .inl ⟨hn, .inr ⟨pos, rfl⟩⟩
      · exact .inr ⟨y, d, rest, es, list, hshow, hlist.elements, hlist, rfl⟩

lemma appendElement_inserts {list : ArgumentList} (h : Lists ps a d list es) (hl : Lexed ps)
    (hps : ps = a ++ .char '[' :: (d ++ .char ']' :: z)) (hb : Balanced d) (hx : Insertable x) :
    ∃ e f l r, e.source = ps ∧ (∀ t, appendElement (textOf ps) list t = .ok (f t)) ∧
      Inserts e f a l r z '[' ']' es [] x := by
  have hlen := h.reads.length_eq
  simp only [appendElement]
  by_cases hi : list.items.isEmpty
  · obtain rfl : es = [] := List.length_eq_zero_iff.mp (hlen.symm.trans (by simpa using hi))
    obtain ⟨e, l, r, hs, hin⟩ := fillEmpty_inserts h hl hps hx false
    exact ⟨e, _, l, r, hs, fun t => if_pos hi, hin⟩
  · have hpos : 0 < list.items.length := List.length_pos_of_ne_nil (by simpa using hi)
    obtain ⟨e, f, l, r, hs, hf, hin⟩ := insertAfter_inserts (n := list.items.length - 1) h hl hps rfl hb hx
      (by omega)
    rw [List.take_of_length_le (by omega), List.drop_of_length_le (by omega)] at hin
    exact ⟨e, f, l, r, hs, fun t => by rw [if_neg hi, hf], hin⟩

/-- What comes of adding a dependency to a target, where the element put in could as well be `x`. -/
inductive Adds (ps : List Piece) (found : List (Text × Call)) (target identifier : Text)
    (x : List Piece) : Except EditError Text → Prop
  | absent : (∀ s ∈ found, s.1 ≠ target) →
    Adds ps found target identifier x (.error (.targetNotFound target (found.map (·.1))))
  | broken {call : Call} {cause : EditError} : (target, call) ∈ found → elementsOf call.body = none →
    cause.isStructural = true → Adds ps found target identifier x (.error cause)
  | listed {call : Call} {es : List (List Piece)} : (target, call) ∈ found →
    elementsOf call.body = some es → (∃ c ∈ es, stringOf (valueOf c) = some identifier) →
    Adds ps found target identifier x (.ok (textOf ps))
  | appended {call : Call} {es : List (List Piece)} {e : Splice} {f : Text → Text}
      {a l r y d rest z : List Piece} {w : Text} : (target, call) ∈ found →
    elementsOf call.body = some es → (∀ c ∈ es, stringOf (valueOf c) ≠ some identifier) →
    Stands ps call a w z → Shows call.body y d rest → contents d = some es → e.source = ps →
    Inserts e f (a ++ chars ('.' :: w) ++ .char '(' :: y) l r (rest ++ .char ')' :: z) '[' ']' es [] x →
    Adds ps found target identifier x (.ok (f (StringLiteral.encode identifier)))

lemma any_reads {identifier : Text} (hl : Lexed ps) (h : List.Forall₂ (Reads ps) items es) :
    (items.any fun item => StringLiteral.valueAt? (textOf ps) item.value = some identifier) =
      es.any fun c => stringOf (valueOf c) = some identifier := by
  have hmap := map_reads h fun hr => valueAt?_reads hr hl
  have hany := congrArg (List.any · fun value => value = some identifier) hmap
  simpa only [List.any_map, Function.comp_def] using hany

theorem addTargetDependency_adds {found : List (Text × Call)} (h : Shown ps found) (hx : Insertable x)
    (target identifier : Text) :
    Adds ps found target identifier x (addTargetDependency (textOf ps) target identifier).outcome := by
  have hloc := locateTargets_eq_ok.mpr ⟨ps, found, rfl, h, rfl⟩
  rw [addTargetDependency, Attempt.bind_outcome, Attempt.mapError_outcome, hloc]
  simp only [Except.mapError, Except.bind, List.find?_map]
  cases hf : found.find? ((fun t : Target => decide (t.name = target)) ∘ targetOf) with
  | none =>
    have hn := List.find?_eq_none.mp hf
    have hnames : (found.map targetOf).map (·.name) = found.map (·.1) := by
      rw [List.map_map]
      rfl
    simp only [Option.map_none, Attempt.fail_outcome, hnames]
    exact .absent fun s hs he => hn s hs (decide_eq_true he)
  | some s =>
    obtain ⟨name, call⟩ := s
    have hmem := List.mem_of_find?_eq_some hf
    have hname := List.find?_some hf
    obtain rfl : name = target := of_decide_eq_true hname
    obtain ⟨a, w, z, hst⟩ := h.stands hmem
    simp only [Option.map_some]
    rw [Attempt.bind_outcome, Attempt.ofExcept_outcome]
    change Adds ps found name identifier x
      (((targetDependencies? (textOf ps) call.span).mapError EditError.scan).bind _)
    rcases targetDependencies?_stands h.lexed hst with
      ⟨hn, hd | ⟨pos, hd⟩⟩ | ⟨y, d, rest, es, list, hshow, helem, hlist, hd⟩
    · rw [hd]
      exact .broken hmem hn rfl
    · rw [hd]
      exact .broken hmem hn rfl
    · rw [hd]
      simp only [Except.mapError, Except.bind, any_reads h.lexed hlist.reads]
      split_ifs with hany
      · rw [Attempt.bind_outcome, Attempt.tell_outcome]
        exact .listed hmem helem (by simpa using hany)
      · obtain ⟨e, f, l, r, hs, hf, hin⟩ :=
          appendElement_inserts hlist h.lexed (hshow.within hst.opened) hshow.interior hx
        rw [hf, Attempt.bind_outcome, Attempt.ofExcept_outcome]
        simp only [Except.bind]
        exact .appended hmem helem (by simpa using hany) hst hshow hlist.elements hs hin

variable {e : Splice} {f : Text → Text} {l r : List Piece} {o k : Char} {cs₁ cs₂ : List (List Piece)}

lemma Inserts.inside {y rest : List Piece} (hin : Inserts e f
      (a ++ chars ('.' :: w) ++ .char '(' :: y) l r (rest ++ .char ')' :: z) '[' ']' es cs₂ x)
    (hst : Stands e.source call a w z) (hs : Shows call.body y d rest) :
    call.span.start < (textOf e.before).length ∧ (textOf (e.before ++ e.old)).length < call.span.stop := by
  have hint := hin.interior (hs.within hst.opened)
  have hstart : call.span.start = (textOf a).length := by rw [Call.span, hst.span]
  have hstop : call.span.stop = (textOf a).length + (w.length + 2) + (textOf call.body).length + 1 := by
    rw [Call.span, hst.span]
  simp only [hs.pieces, hint, hin.before, textOf_append, textOf_cons, textOf_chars, Piece.text,
    List.length_append, List.length_cons, List.length_nil] at hstop ⊢
  omega

lemma Framed.edited {y rest : List Piece} (h : Framed e call call') (hst : Stands e.source call a w z)
    (hs : Shows call.body y d rest) (hin : Inserts e f (a ++ chars ('.' :: w) ++ .char '(' :: y) l r
      (rest ++ .char ')' :: z) '[' ']' es cs₂ x) (hl : Lexed e.source) :
    call'.body = y ++ .char '[' :: ((l ++ e.new ++ r) ++ .char ']' :: rest) := by
  have hd := hin.interior (hs.within hst.opened)
  obtain ⟨hstart, hstop⟩ := hin.inside hst hs
  rw [textOf_append, List.length_append] at hstop
  cases h with
  | before _ hle => omega
  | after _ _ _ hle =>
    rw [textOf_append, List.length_append] at hle
    omega
  | @around _ b u v z' w' hb _ _ hold hnew _ _ hspan =>
    have hlb : Lexed e.before := by
      rw [Splice.source, List.append_assoc] at hl
      exact hl.left
    have hsame : (textOf b).length = (textOf a).length ∧ w'.length = w.length := by
      rw [hst.span] at hspan
      simp only [Interval.mk.injEq] at hspan
      omega
    have hsplit : b ++ chars ('.' :: w') ++ .char '(' :: u =
        a ++ chars ('.' :: w) ++ .char '(' :: (y ++ .char '[' :: l) := by
      rw [← hb, hin.before]
      simp
    have hu : u = y ++ .char '[' :: l := by
      refine Lexed.eq_of_textOf ?_ ?_ ?_
      · rw [hb] at hlb
        exact hlb.right.tail
      · rw [hb, hsplit] at hlb
        exact hlb.right.tail
      · have ht := congrArg textOf hsplit
        rw [textOf_append, textOf_append _ (.char '(' :: (y ++ .char '[' :: l))] at ht
        have := (List.append_inj ht (by simp [hsame.1, hsame.2])).2
        exact (List.cons.inj this).2
    have hv : v = r ++ .char ']' :: rest := by
      rw [hs.pieces, hd, hu] at hold
      have : y ++ .char '[' :: (l ++ e.old) ++ v = y ++ .char '[' :: (l ++ e.old) ++
          (r ++ .char ']' :: rest) := by
        simpa using hold.symm
      exact List.append_cancel_left this
    rw [hnew, hu, hv]
    simp

/-- The elements with the identifier last, unless one of them reads as it already. -/
def withName (identifier : Text) (es : List (List Piece)) : List (List Piece) :=
  if es.any fun c => stringOf (valueOf c) = some identifier then es else es ++ [nameElement identifier]

/-- How a target is found again once the `targets` got a dependency. -/
structure Follows (t t' : Text) (targets : List Text) (identifier : Text) (s s' : Text × Call) : Prop where
  name : s'.1 = s.1
  kind : s'.2.occurrence.capture = s.2.occurrence.capture
  edited : s.1 ∈ targets → ∃ es, elementsOf s.2.body = some es ∧
    elementsOf s'.2.body = some (withName identifier es)
  same : s.1 ∉ targets → SameSource t t' s s'

variable {found : List (Text × Call)} {target identifier : Text}

lemma elementsOf_edited {y rest : List Piece} (hs : Shows call.body y d rest)
    (hin : Inserts e f a l r z '[' ']' es [] x)
    (h : call'.body = y ++ .char '[' :: ((l ++ e.new ++ r) ++ .char ']' :: rest)) :
    elementsOf call'.body = some (es ++ [x]) := by
  obtain ⟨cs, hcs, hd⟩ := hs.named ((hin.left.append hin.even.new).append hin.right)
  rw [h, elementsOf, hcs, Option.bind_some, hd, Option.bind_some, hin.contents]

/-- A dependency that was added stands last in its array, and nothing else has changed. -/
theorem addTargetDependency_ok {t : Text} (h : Shown ps found) (hid : '\n' ∉ identifier)
    (hok : (addTargetDependency (textOf ps) target identifier).outcome = .ok t) :
    ∃ ps' found', t = textOf ps' ∧ Shown ps' found' ∧
      List.Forall₂ (Follows (textOf ps) t [target] identifier) found found' ∧ Keeps ps ps' := by
  have hx := insertable_name hid
  have hadds := addTargetDependency_adds h hx target identifier
  rw [hok] at hadds
  cases hadds with
  | @listed call es hmem hes hread =>
    refine ⟨ps, found, rfl, h, ?_, .refl ps⟩
    refine List.forall₂_same.mpr fun s hs => ⟨rfl, rfl, fun hn => ?_, fun _ => ⟨rfl, rfl⟩⟩
    obtain rfl := h.eq_of_name hmem hs (List.mem_singleton.mp hn)
    refine ⟨es, hes, ?_⟩
    rw [withName, if_pos (by simpa using hread), hes]
  | @appended call es e f a l r y d rest z w hmem hes hnone hst hshow hcd hs hin =>
    subst hs
    rw [← textOf_nameElement, hin.places.target]
    obtain ⟨found', hshown, hfr⟩ := shown_target hin rfl (fun ho => absurd ho (by decide)) h
    have held : contents (l ++ e.old ++ r) = some es := by
      rw [← hin.interior (hshow.within hst.opened), hcd]
    refine ⟨e.target, found', rfl, hshown, ?_, keeps_target hin held rfl h.lexed⟩
    refine (List.forall₂_and_left _ _ |>.mpr ⟨fun s hs => hs, hfr⟩).imp fun s s' hss' => ?_
    obtain ⟨hs, hname, hf⟩ := hss'
    refine ⟨hname, hf.capture, fun hn => ?_, fun hn => ?_⟩
    · obtain rfl := h.eq_of_name hmem hs (List.mem_singleton.mp hn)
      refine ⟨es, hes, ?_⟩
      rw [withName, if_neg (by simpa using hnone)]
      exact elementsOf_edited hshow hin (hf.edited hst hshow hin h.lexed)
    · have hsep : call.span.stop ≤ s.2.span.start ∨ s.2.span.stop ≤ call.span.start :=
        (h.separate hmem hs fun he => hn (he ▸ List.mem_singleton.mpr rfl)).2
      have hinside := hin.inside hst hshow
      exact hf.sameSource (by omega)

end PackageInstaller.Manifest
