import PackageInstaller.Proofs.Nesting

/-! Which declarations of a text are located. Each target that is found is a declaration with a name, and each such
declaration is found, or begins inside of an outermost one, or has the name of a target found before it. -/

namespace PackageInstaller.Manifest

/-- At `i`, outside of comments and strings, there is the word of a target declaration, and at `opener`, behind blanks,
its parenthesis. -/
structure Opens (t : Text) (kind : TargetKind) (i opener : Nat) : Prop where
  code : ∃ index, LiteralIndex.ofText t = .ok index ∧ index.holds i = false
  word : ∃ blanks rest, (∀ c ∈ blanks, Text.isBlank c = true) ∧
    t.drop i = '.' :: (kind.word ++ (blanks ++ '(' :: rest)) ∧ opener = i + (kind.word.length + blanks.length + 1)

/-- The declaration reaches from its word to the closer of its parenthesis, and the first of its arguments under the
label of names is a string with the target's name. -/
def NamedDeclaration (t : Text) (decl : Target) : Prop :=
  ∃ kind opener closer args item, decl.kind = kind.word ∧ Opens t kind decl.span.start opener ∧
    findClosing t opener = .ok closer ∧ decl.span.stop = closer + 1 ∧ splitArguments t opener = .ok args ∧
    args.find? nameLabel = some item ∧ StringLiteral.valueAt? t item.value = some decl.name

/-- The offset is behind the first character of the declaration and before its end. -/
def Target.Covers (target : Target) (i : Nat) : Prop := target.span.start < i ∧ i < target.span.stop

def Named (call : Call) : Prop := ∃ name, naming call.body = some (.named name)

/-- What becomes of a declaration with a name among those left. -/
inductive Accounted (outer : Nat) (seen : List Text) (calls : List Call) (found : List (Text × Call)) (call : Call)
    (name : Text) : Prop
  | inside : call.span.start < outer → Accounted outer seen calls found call name
  | hosted {host : Call} : host ∈ calls → Named host → outer ≤ host.span.start →
    host.span.start < call.span.start → call.span.start < host.span.stop →
    (∀ c ∈ calls, Named c → c.span.start < host.span.start → c.span.stop ≤ host.span.start) →
    Accounted outer seen calls found call name
  | seen : name ∈ seen → Accounted outer seen calls found call name
  | taken {s : Text × Call} : s ∈ found → s.1 = name → s.2.span.start < call.span.start →
    Accounted outer seen calls found call name
  | found : (name, call) ∈ found → Accounted outer seen calls found call name

variable {ps : List Piece} {calls rest : List Call} {found later : List (Text × Call)} {call c : Call} {name : Text}
  {outer outer' : Nat} {seen seen' : List Text} {t : Text} {decl : Target}

lemma Unnamed.not_named (h : Unnamed call) : ¬Named call := by
  rintro ⟨name, hname⟩
  rcases h with h | h <;> rw [hname] at h <;> simp at h

lemma Accounted.onward (h : Accounted outer' seen' rest later c name) (hout : outer ≤ outer')
    (hcall : Named call → call.span.stop ≤ outer') (hsub : later ⊆ found) :
    c.span.start < outer' ∨ name ∈ seen' ∨ Accounted outer seen (call :: rest) found c name := by
  cases h with
  | inside h => exact .inl h
  | seen h => exact .inr (.inl h)
  | hosted hmem hnamed hle hlt hgt hno =>
    refine .inr (.inr (.hosted (List.mem_cons_of_mem _ hmem) hnamed (Nat.le_trans hout hle) hlt hgt ?_))
    exact List.forall_mem_cons.mpr ⟨fun hname _ => Nat.le_trans (hcall hname) hle, hno⟩
  | taken hs hname hlt => exact .inr (.inr (.taken (hsub hs) hname hlt))
  | found h => exact .inr (.inr (.found (hsub h)))

lemma Ahead.hosted (h : Ahead outer (call :: rest)) (hout : outer ≤ call.span.start) (hcall : Named call)
    (hc : c ∈ rest) (hin : c.span.start < call.span.stop) : Accounted outer seen (call :: rest) found c name := by
  refine .hosted List.mem_cons_self hcall hout (h.head c hc) hin (List.forall_mem_cons.mpr ⟨fun _ hlt => ?_, ?_⟩)
  · exact absurd hlt (Nat.lt_irrefl _)
  · exact fun d hd _ hlt => absurd hlt (Nat.not_lt_of_lt (h.head d hd))

theorem Locating.complete (h : Locating outer seen calls found) (ha : Ahead outer calls) :
    ∀ call ∈ calls, ∀ name, naming call.body = some (.named name) → Accounted outer seen calls found call name := by
  induction h with
  | nil => simp
  | @inside outer _ call _ _ hin _ ih =>
    refine List.forall_mem_cons.mpr ⟨fun _ _ => .inside hin, fun c hc name hname => ?_⟩
    have hstop : call.span.stop ≤ outer := ha.outside call List.mem_cons_self hin
    rcases (ih ha.tail c hc name hname).onward (Nat.le_refl _) (fun _ => hstop) (List.Subset.refl _) with h | h | h
    · exact .inside h
    · exact .seen h
    · exact h
  | @unnamed _ _ call _ _ _ hno _ ih =>
    have hno : ¬Named call := hno.not_named
    refine List.forall_mem_cons.mpr ⟨fun name h => absurd ⟨name, h⟩ hno, fun c hc name hname => ?_⟩
    rcases (ih ha.tail c hc name hname).onward (Nat.le_refl _) (fun h => absurd h hno) (List.Subset.refl _)
      with h | h | h
    · exact .inside h
    · exact .seen h
    · exact h
  | @taken outer _ call _ _ name hout hcall hseen _ ih =>
    refine List.forall_mem_cons.mpr ⟨fun name' h => ?_, fun c hc name' hname => ?_⟩
    · obtain rfl : name = name' := by simpa using hcall.symm.trans h
      exact .seen hseen
    · have hle : outer ≤ call.span.stop := Nat.le_trans hout (Nat.le_of_lt (ha.inhabited call List.mem_cons_self))
      rcases (ih ha.past c hc name' hname).onward hle (fun _ => Nat.le_refl _) (List.Subset.refl _) with h | h | h
      · exact ha.hosted hout ⟨name, hcall⟩ hc h
      · exact .seen h
      · exact h
  | @found outer _ call _ _ name hout hcall _ _ ih =>
    refine List.forall_mem_cons.mpr ⟨fun name' h => ?_, fun c hc name' hname => ?_⟩
    · obtain rfl : name = name' := by simpa using hcall.symm.trans h
      exact .found List.mem_cons_self
    · have hle : outer ≤ call.span.stop := Nat.le_trans hout (Nat.le_of_lt (ha.inhabited call List.mem_cons_self))
      rcases (ih ha.past c hc name' hname).onward hle (fun _ => Nat.le_refl _) (List.subset_cons_self _ _)
        with h | h | h
      · exact ha.hosted hout ⟨name, hcall⟩ hc h
      · rcases List.mem_cons.mp h with rfl | h
        · exact .taken List.mem_cons_self rfl (ha.head c hc)
        · exact .seen h
      · exact h

lemma namingOf_eq_named {span : Span} : namingOf t span = .ok (.named name) ↔ ∃ args item,
    targetArguments? t span = .ok (some args) ∧ args.find? nameLabel = some item ∧
      StringLiteral.valueAt? t item.value = some name := by
  rw [namingOf, bind_eq_ok]
  constructor
  · rintro ⟨args, hargs, h⟩
    cases hitem : args.bind (·.find? nameLabel) with
    | none => simp [hitem, pure, Except.pure] at h
    | some item =>
      obtain ⟨args, rfl, hfind⟩ := Option.bind_eq_some_iff.mp hitem
      cases hvalue : StringLiteral.valueAt? t item.value with
      | none => simp [hitem, hvalue, pure, Except.pure] at h
      | some value =>
        obtain rfl : value = name := by simpa [hitem, hvalue, pure, Except.pure] using h
        exact ⟨args, item, hargs, hfind, hvalue⟩
  · rintro ⟨args, item, hargs, hfind, hvalue⟩
    refine ⟨some args, hargs, ?_⟩
    simp only [Option.bind_some, hfind, hvalue]
    rfl

lemma exists_piece_at {i : Nat} (hi : i < (textOf ps).length) : ∃ a p b, ps = a ++ p :: b ∧
    (textOf a).length ≤ i ∧ i < (textOf a).length + p.text.length := by
  induction ps generalizing i with
  | nil => simp at hi
  | cons p ps ih =>
    by_cases hp : i < p.text.length
    · exact ⟨[], p, ps, rfl, Nat.zero_le _, by simpa using hp⟩
    · rw [textOf_cons, List.length_append] at hi
      obtain ⟨a, q, b, rfl, hle, hlt⟩ := @ih (i - p.text.length) (by omega)
      refine ⟨p :: a, q, b, rfl, ?_, ?_⟩ <;> rw [textOf_cons, List.length_append] <;> omega

lemma exists_char_at (hl : Lexed ps) {i : Nat} (hi : i < (textOf ps).length)
    (hcode : (LiteralIndex.mk (literalSpans 0 ps).toArray).holds i = false) :
    ∃ a c b, ps = a ++ .char c :: b ∧ i = (textOf a).length := by
  obtain ⟨a, p, b, rfl, hle, hlt⟩ := exists_piece_at hi
  cases p with
  | literal l =>
    rw [holds_literal hl hle hlt] at hcode
    simp at hcode
  | char c => exact ⟨a, c, b, rfl, by rw [Piece.text, List.length_singleton] at hlt; omega⟩

lemma exists_site {a b : List Piece} {c : Char} {n : Nat} {kind : TargetKind} (hps : ps = a ++ .char c :: b)
    (h : targetLength? (c :: textOf b) = some (n, kind)) : ∃ s ∈ targetSites ps,
      s.occurrence = ⟨⟨(textOf a).length, (textOf a).length + n⟩, some kind.word⟩ := by
  have hhead : ∀ pos before, ∃ inside rest, sitesFrom .targetDeclaration [] pos before (.char c :: b) =
      ⟨⟨⟨pos, pos + n⟩, some kind.word⟩, inside⟩ :: rest := by
    intro pos before
    rw [sitesFrom, List.append_nil]
    simp only [Anchor.matchHead?, h, Option.map_some]
    exact ⟨_, _, rfl⟩
  obtain ⟨inside, rest, hsites⟩ := hhead (textOf a).length ((textOf a).getLast?.or none)
  rw [hps, targetSites, sitesFrom_append, Nat.zero_add, hsites]
  exact ⟨_, List.mem_append_right _ List.mem_cons_self, rfl⟩

lemma Declares.exists_call (h : Declares ps calls) {s : Site} (hs : s ∈ targetSites ps) :
    ∃ call ∈ calls, call.occurrence = s.occurrence := by
  obtain ⟨hlen, hget⟩ := List.forall₂_iff_get.mp h
  obtain ⟨i, hi, rfl⟩ := List.mem_iff_getElem.mp hs
  have hi' : i < calls.length := by omega
  obtain ⟨b, -, hb⟩ := Option.map_eq_some_iff.mp (hget i hi hi')
  exact ⟨calls[i], List.getElem_mem hi', (congrArg Call.occurrence hb).symm⟩

lemma Told.eq_some {α : Type} {told : Option α} {a : α} (h : Told told (.ok a)) : told = some a := by
  cases told with
  | none =>
    obtain ⟨pos, h⟩ := h
    simp at h
  | some b =>
    obtain rfl := Except.ok.inj h
    rfl

lemma Stands.opens {a z : List Piece} {w : Text} (hl : Lexed ps) (h : Stands ps call a w z) : ∃ kind,
    call.occurrence.capture = some kind.word ∧ Opens (textOf ps) kind call.span.start call.occurrence.opener := by
  obtain ⟨kind, hcapture, hk⟩ := h.kind
  obtain ⟨v, rfl, hv⟩ := targetLength?_word (hk [])
  have hdrop : (textOf ps).drop (textOf a).length =
      '.' :: (kind.word ++ (v ++ '(' :: (textOf call.body ++ ')' :: textOf z))) := by
    rw [h.pieces, drop_textOf]
    simp [Piece.text]
  rw [h.lengths.1]
  refine ⟨kind, hcapture, ⟨_, ofText_textOf hl, ?_⟩, v, _, hv, hdrop, ?_⟩
  · rw [h.pieces] at hl ⊢
    exact holds_char hl
  · rw [h.opener, length_before_paren, List.length_append]

lemma Opens.exists_call {kind : TargetKind} {i opener : Nat} (h : Opens (textOf ps) kind i opener)
    (hd : Declares ps calls) (hl : Lexed ps) : ∃ call ∈ calls, call.span.start = i ∧
      call.occurrence.opener = opener ∧ call.occurrence.capture = some kind.word := by
  obtain ⟨⟨index, hindex, hcode⟩, blanks, rest, hblank, hdrop, rfl⟩ := h
  obtain rfl := Except.ok.inj ((ofText_textOf hl).symm.trans hindex)
  have hlt : i < (textOf ps).length := by
    have := congrArg List.length hdrop
    rw [List.length_drop, List.length_cons] at this
    omega
  obtain ⟨a, c, b, hps, rfl⟩ := exists_char_at hl hlt hcode
  have htext : c :: textOf b = '.' :: (kind.word ++ (blanks ++ '(' :: rest)) := by
    rw [← hdrop, hps, drop_textOf]
    rfl
  obtain ⟨s, hs, hsite⟩ := exists_site hps (htext ▸ targetLength?_eq_some hblank)
  obtain ⟨call, hc, hcall⟩ := hd.exists_call hs
  rw [hsite] at hcall
  refine ⟨call, hc, by rw [Call.span, hcall], ?_, by rw [hcall]⟩
  rw [Occurrence.opener, hcall]
  simp only
  omega

lemma Declares.call_of_named (hd : Declares ps calls) (hl : Lexed ps) (h : NamedDeclaration (textOf ps) decl) :
    ∃ call ∈ calls, naming call.body = some (.named decl.name) ∧ targetOf (decl.name, call) = decl := by
  obtain ⟨kind, opener, closer, args, item, hkind, hopens, hclose, hstop, hargs, hfind, hvalue⟩ := h
  obtain ⟨call, hc, hstart, hopener, hcapture⟩ := hopens.exists_call hd hl
  obtain ⟨a, w, z, hst⟩ := hd.stands hl hc
  obtain ⟨closer', hclose', hspan⟩ := map_eq_ok.mp (callSpan_stands hl hst)
  rw [hopener, hclose] at hclose'
  obtain rfl := Except.ok.inj hclose'
  have hspan : call.span = decl.span := hspan.symm.trans (congrArg₂ Interval.mk hstart hstop.symm)
  have hnaming : namingOf (textOf ps) call.span = .ok (.named decl.name) :=
    namingOf_eq_named.mpr ⟨args, item, by rw [hst.arguments, hopener, hargs]; rfl, hfind, hvalue⟩
  refine ⟨call, hc, (hnaming ▸ namingOf_stands hl hst).eq_some, ?_⟩
  rw [targetOf, hspan, hcapture, Option.getD_some, ← hkind]

lemma Declares.named_of_call (hd : Declares ps calls) (hl : Lexed ps) (hc : call ∈ calls)
    (hname : naming call.body = some (.named name)) : NamedDeclaration (textOf ps) (targetOf (name, call)) := by
  obtain ⟨a, w, z, hst⟩ := hd.stands hl hc
  have hnaming := namingOf_stands hl hst
  rw [hname] at hnaming
  obtain ⟨args, item, hargs, hfind, hvalue⟩ := namingOf_eq_named.mp hnaming
  rw [hst.arguments] at hargs
  obtain ⟨args', hsplit, he⟩ := map_eq_ok.mp hargs
  obtain rfl := Option.some.inj he
  obtain ⟨closer, hclose, hspan⟩ := map_eq_ok.mp (callSpan_stands hl hst)
  obtain ⟨kind, hcapture, hopens⟩ := hst.opens hl
  have hkind : (targetOf (name, call)).kind = kind.word := by rw [targetOf, hcapture, Option.getD_some]
  have hstop : call.span.stop = closer + 1 := by rw [← hspan]
  exact ⟨kind, call.occurrence.opener, closer, args', item, hkind, hopens, hclose, hstop, hsplit, hfind, hvalue⟩

lemma Declares.named (hd : Declares ps calls) (hl : Lexed ps) : NamedDeclaration (textOf ps) decl ↔
    ∃ s : Text × Call, s.2 ∈ calls ∧ naming s.2.body = some (.named s.1) ∧ targetOf s = decl := by
  constructor
  · intro h
    obtain ⟨call, hc, hname, heq⟩ := hd.call_of_named hl h
    exact ⟨(decl.name, call), hc, hname, heq⟩
  · rintro ⟨s, hc, hname, rfl⟩
    exact hd.named_of_call hl hc hname

/-- The targets found are declarations with a name, apart from each other and under different names. One that is not
found begins inside of another one, which begins inside of none, or has the name of a target found before it. -/
theorem locateTargets_named {ts : List Target} (h : (locateTargets t).outcome = .ok ts) :
    (ts.Pairwise fun a b => a.span.start < b.span.start ∧ a.span.stop ≤ b.span.start ∧ a.name ≠ b.name) ∧
    (∀ target ∈ ts, NamedDeclaration t target) ∧
    ∀ decl, NamedDeclaration t decl → decl ∈ ts ∨
      (∃ outer, NamedDeclaration t outer ∧ outer.Covers decl.span.start ∧
        ∀ other, NamedDeclaration t other → ¬other.Covers outer.span.start) ∨
      ∃ target ∈ ts, target.span.start < decl.span.start ∧ target.name = decl.name := by
  obtain ⟨ps, found, rfl, hshown, rfl⟩ := locateTargets_eq_ok.mp h
  obtain ⟨calls, hd, hf⟩ := hshown.calls
  have hl := hshown.lexed
  have ha := hd.ahead hl
  have hlocating := locating_of_located hf
  obtain ⟨hmem, hapart⟩ := hlocating.spec ha.inhabited
  refine ⟨?_, ?_, fun decl hdecl => ?_⟩
  · refine List.pairwise_map.mpr (hapart.imp_of_mem fun {s s'} hs _ hss' => ?_)
    have hlt := ha.inhabited s.2 (hmem s hs).1
    exact ⟨Nat.lt_of_lt_of_le hlt hss'.1, hss'.1, hss'.2.symm⟩
  · refine List.forall_mem_map.mpr fun s hs => (hd.named hl).mpr ⟨s, ?_, ?_, rfl⟩
    · exact (hmem s hs).1
    · exact (hmem s hs).2.2.2
  · obtain ⟨⟨name, call⟩, hc, hname, rfl⟩ := (hd.named hl).mp hdecl
    cases hlocating.complete ha call hc name hname with
    | inside h => exact absurd h (Nat.not_lt_zero _)
    | seen h => simp at h
    | found h => exact .inl (List.mem_map_of_mem h)
    | taken hs hsame hlt => exact .inr (.inr ⟨_, List.mem_map_of_mem hs, hlt, hsame⟩)
    | @hosted host hm hnamed _ hlt hgt hno =>
      obtain ⟨n, hn⟩ := hnamed
      refine .inr (.inl ⟨targetOf (n, host), (hd.named hl).mpr ⟨_, hm, hn, rfl⟩, ⟨hlt, hgt⟩, ?_⟩)
      rintro other hother ⟨hbefore, hbeyond⟩
      obtain ⟨s, hs, hsn, rfl⟩ := (hd.named hl).mp hother
      exact absurd hbeyond (Nat.not_lt_of_le (hno s.2 hs ⟨s.1, hsn⟩ hbefore))

def namedTwice : Text := ".target(name:\"A\",dependencies:[.target(name:\"B\")]) .testTarget (name:\"A\")".toList

theorem locateTargets_namedTwice : ∃ first inner second, (locateTargets namedTwice).outcome = .ok [first] ∧
    NamedDeclaration namedTwice first ∧ NamedDeclaration namedTwice inner ∧ NamedDeclaration namedTwice second ∧
      (∃ outer, NamedDeclaration namedTwice outer ∧ outer.Covers inner.span.start) ∧ second.name = first.name := by
  have hfound : (locateTargets namedTwice).outcome = .ok [⟨['A'], TargetKind.target.word, ⟨0, 50⟩⟩] := by
    decide +kernel
  have hinner : NamedDeclaration namedTwice ⟨['B'], TargetKind.target.word, ⟨31, 48⟩⟩ :=
    ⟨.target, 38, 47, _, _, rfl, ⟨⟨_, rfl, by decide +kernel⟩, [], _, by simp, rfl, rfl⟩, rfl, rfl, rfl, rfl, rfl⟩
  have hsecond : NamedDeclaration namedTwice ⟨['A'], TargetKind.testTarget.word, ⟨51, 73⟩⟩ :=
    ⟨.testTarget, 63, 72, _, _, rfl, ⟨⟨_, rfl, by decide +kernel⟩, [' '], _, by decide, rfl, rfl⟩, rfl, rfl, rfl, rfl,
      rfl⟩
  obtain ⟨-, hsound, hcomplete⟩ := locateTargets_named hfound
  refine ⟨_, _, _, hfound, hsound _ (List.mem_singleton_self _), hinner, hsecond, ?_, rfl⟩
  rcases hcomplete _ hinner with hin | ⟨outer, houter, hcovers, -⟩ | ⟨target, ht, -, hname⟩
  · exact absurd hin (by decide)
  · exact ⟨outer, houter, hcovers⟩
  · obtain rfl := List.mem_singleton.mp ht
    exact absurd hname (by decide)

end PackageInstaller.Manifest
