import PackageInstaller.Proofs.Shown

/-! How the target declarations of a text lie in each other. Of two of them one stands between the
parentheses of the other, or they are apart; and inside of one that names its target by a literal no
target is found. -/

namespace PackageInstaller.Manifest

variable {ps : List Piece} {calls : List Call} {found : List (Text × Call)}

/-- Of two declarations the second ends with the first at the latest, or begins after it. -/
def Layered (call call' : Call) : Prop :=
  call'.span.stop ≤ call.span.stop ∨ call.span.stop ≤ call'.span.start

lemma exists_of_append_eq {p n a u : List Piece} {q : Piece} (h : p ++ q :: n = a ++ u) (hq : q ∉ u) :
    ∃ m, a = p ++ q :: m := by
  rcases append_eq_append_cons h.symm with ⟨f, -, rfl⟩ | ⟨m, hm, -⟩
  · simp at hq
  · exact ⟨m, hm⟩

lemma not_mem_word {w : Text} {c : Char} (hw : ∀ c ∈ w, Ordinary c) (hc : ¬Inner c) :
    Piece.char c ∉ chars ('.' :: w) := by
  refine not_mem_chars (fun d hd => ?_) hc
  rcases List.mem_cons.mp hd with rfl | hd
  · decide
  · exact (hw d hd).2.1

section

variable {call call' : Call} {a a' z z' : List Piece} {w w' : Text}

lemma Stands.lengths (h : Stands ps call a w z) : call.span.start = (textOf a).length ∧
    call.span.start < (textOf (a ++ chars ('.' :: w))).length ∧
      call.span.stop = (textOf (a ++ chars ('.' :: w))).length + (textOf call.body).length + 2 := by
  rw [length_before_paren]
  simp only [Call.span, h.span, true_and]
  omega

lemma Stands.layered (h : Stands ps call a w z) (h' : Stands ps call' a' w' z')
    (hlt : call.span.start < call'.span.start) : Layered call call' := by
  obtain ⟨hstart, -, hstop⟩ := h.lengths
  obtain ⟨hstart', hopen', hstop'⟩ := h'.lengths
  have hparen : closerOf? '(' = some ')' := rfl
  rcases append_cons_eq_append_cons (h.opened.symm.trans h'.opened) with ⟨hc, -, hrest⟩ | ⟨d, hc, hrest⟩ | ⟨d, hc, -⟩
  · -- the two words end at one parenthesis
    obtain ⟨hbody, -⟩ := group_unique hparen h.balanced h'.balanced hrest
    refine .inl (Nat.le_of_eq ?_)
    rw [hstop, hstop', hc, hbody]
  · rcases group_within hparen hparen h.balanced h'.balanced hrest with hin | ⟨m, rfl⟩
    · refine .inl ?_
      rw [hstop, hstop', hc]
      simp only [textOf_append, textOf_cons, Piece.text, List.length_append, List.length_singleton] at hin ⊢
      omega
    · refine .inr ?_
      have hc' : a ++ chars ('.' :: w) ++ .char '(' :: call.body ++ .char ')' :: m = a' ++ chars ('.' :: w') := by
        rw [hc]
        simp
      obtain ⟨n, ha'⟩ := exists_of_append_eq hc' (not_mem_word h'.ordinary (by decide))
      rw [hstop, hstart', ha']
      simp only [textOf_append, textOf_cons, Piece.text, List.length_append, List.length_singleton]
      omega
  · -- then the word of the first begins after the parenthesis of the second
    obtain ⟨m, ha⟩ := exists_of_append_eq hc.symm (not_mem_word h.ordinary (by decide))
    rw [ha, textOf_append, List.length_append] at hstart
    omega

end

lemma sitesFrom_ordered (anchor : Anchor) (z : List Piece) (pos : Nat) (before : Option Char)
    (ps : List Piece) :
    (∀ s ∈ sitesFrom anchor z pos before ps, pos ≤ s.occurrence.span.start) ∧
      (sitesFrom anchor z pos before ps).Pairwise fun s s' =>
        s.occurrence.span.start < s'.occurrence.span.start := by
  induction ps generalizing pos before with
  | nil => exact ⟨by simp [sitesFrom], .nil⟩
  | cons p ps ih =>
    cases p with
    | literal l =>
      obtain ⟨hle, hp⟩ := ih (pos + l.length) (l.getLast?.or before)
      exact ⟨fun s hs => Nat.le_trans (Nat.le_add_right _ _) (hle s hs), hp⟩
    | char c =>
      obtain ⟨hle, hp⟩ := ih (pos + 1) (some c)
      rw [sitesFrom]
      split
      · refine ⟨fun s hs => ?_, .cons (fun s hs => hle s hs) hp⟩
        rcases List.mem_cons.mp hs with rfl | hs
        · exact Nat.le_refl _
        · exact Nat.le_of_succ_le (hle s hs)
      · exact ⟨fun s hs => Nat.le_of_succ_le (hle s hs), hp⟩

lemma Declares.layered (h : Declares ps calls) (hl : Lexed ps) :
    calls.Pairwise fun call call' => call.span.start < call'.span.start ∧ Layered call call' := by
  have hp := (sitesFrom_ordered .targetDeclaration [] 0 none ps).2
  have hp : ((targetSites ps).map (·.occurrence)).Pairwise fun o o' => o.span.start < o'.span.start :=
    List.pairwise_map.mpr hp
  rw [h.occurrences, List.pairwise_map] at hp
  refine hp.imp_of_mem fun {call call'} hc hc' hlt => ⟨hlt, ?_⟩
  obtain ⟨a, w, z, hs⟩ := h.stands hl hc
  obtain ⟨a', w', z', hs'⟩ := h.stands hl hc'
  exact hs.layered hs' hlt

/-- Declarations as they come when those before them are done and `outer` is the bound. It is never inside of one that
is still to come. -/
structure Ahead (outer : Nat) (calls : List Call) : Prop where
  layered : calls.Pairwise fun call call' => call.span.start < call'.span.start ∧ Layered call call'
  inhabited : ∀ call ∈ calls, call.span.start < call.span.stop
  outside : ∀ call ∈ calls, call.span.start < outer → call.span.stop ≤ outer

section

variable {outer : Nat} {seen : List Text} {call : Call} {rest : List Call}

lemma Ahead.tail (h : Ahead outer (call :: rest)) : Ahead outer rest where
  layered := (List.pairwise_cons.mp h.layered).2
  inhabited := fun c hc => h.inhabited c (List.mem_cons_of_mem _ hc)
  outside := fun c hc => h.outside c (List.mem_cons_of_mem _ hc)

lemma Ahead.head (h : Ahead outer (call :: rest)) : ∀ c ∈ rest, call.span.start < c.span.start :=
  fun c hc => ((List.pairwise_cons.mp h.layered).1 c hc).1

/-- Past a declaration its end is the bound. -/
lemma Ahead.past (h : Ahead outer (call :: rest)) : Ahead call.span.stop rest where
  layered := h.tail.layered
  inhabited := h.tail.inhabited
  outside := fun c hc hlt => ((List.pairwise_cons.mp h.layered).1 c hc).2.resolve_right (by omega)

lemma Declares.ahead (h : Declares ps calls) (hl : Lexed ps) : Ahead 0 calls where
  layered := h.layered hl
  inhabited := fun call hc => by
    obtain ⟨a, w, z, hst⟩ := h.stands hl hc
    exact hst.start_lt
  outside := fun _ _ h => absurd h (Nat.not_lt_zero _)

/-- What names a target ends before each target that is found after it. -/
lemma Locating.around (h : Locating outer seen calls found) (ha : Ahead outer calls) :
    ∀ s ∈ found, ∀ call ∈ calls, call.span.start < s.2.span.start →
      s.2.span.start < call.span.stop → Unnamed call := by
  induction h with
  | nil => simp
  | inside hin hrest ih =>
    intro s hs c hc hlt hgt
    rcases List.mem_cons.mp hc with rfl | hc
    · have := ha.outside c List.mem_cons_self hin
      have := ((hrest.spec ha.tail.inhabited).1 s hs).2.1
      omega
    · exact ih ha.tail s hs c hc hlt hgt
  | unnamed _ hno _ ih =>
    intro s hs c hc hlt hgt
    rcases List.mem_cons.mp hc with rfl | hc
    · exact hno
    · exact ih ha.tail s hs c hc hlt hgt
  | taken _ _ _ hrest ih =>
    intro s hs c hc hlt hgt
    rcases List.mem_cons.mp hc with rfl | hc
    · have := ((hrest.spec ha.past.inhabited).1 s hs).2.1
      omega
    · exact ih ha.past s hs c hc hlt hgt
  | found _ _ _ hrest ih =>
    intro s hs c hc hlt hgt
    rcases List.mem_cons.mp hs with rfl | hlater <;> rcases List.mem_cons.mp hc with rfl | hc
    · exact absurd hlt (Nat.lt_irrefl _)
    · exact absurd hlt (Nat.not_lt_of_lt (ha.head c hc))
    · have := ((hrest.spec ha.past.inhabited).1 s hlater).2.1
      omega
    · exact ih ha.past s hlater c hc hlt hgt

end

lemma targetDeclarations_declares (hl : Lexed ps) (h : Declares ps calls) :
    targetDeclarations (textOf ps) = .ok (calls.map fun call => (call.occurrence, call.span)) := by
  have hspans : ∀ call ∈ calls, callSpan (textOf ps) call.occurrence = .ok call.span := by
    intro call hc
    obtain ⟨a, w, z, hs⟩ := h.stands hl hc
    exact callSpan_stands hl hs
  have hmap : (calls.map (·.occurrence)).mapM (fun o => (callSpan (textOf ps) o).map (o, ·)) =
      .ok (calls.map fun call => (call.occurrence, call.span)) := by
    clear h
    induction calls with
    | nil => rfl
    | cons call rest ih =>
      rw [List.map_cons, List.mapM_cons, hspans call List.mem_cons_self,
        ih fun c hc => hspans c (List.mem_cons_of_mem _ hc)]
      rfl
  rw [targetDeclarations, codeOccurrences_textOf targetDeclaration_calls hl]
  simp only [bind, Except.bind]
  change ((targetSites ps).map (·.occurrence)).mapM _ = _
  rw [h.occurrences]
  exact hmap

/-- A target is found inside of a declaration only if that one names none by a literal. -/
theorem locateTargets_around {t : Text} {ts : List Target} (h : (locateTargets t).outcome = .ok ts) :
    ∃ decls, targetDeclarations t = .ok decls ∧
      ∀ target ∈ ts, ∀ decl ∈ decls, decl.2.start < target.span.start → target.span.start < decl.2.stop →
        namingOf t decl.2 = .ok .nameless ∨ namingOf t decl.2 = .ok .notLiteral := by
  obtain ⟨ps, found, rfl, hshown, rfl⟩ := locateTargets_eq_ok.mp h
  obtain ⟨calls, hd, hf⟩ := hshown.calls
  have hl := hshown.lexed
  refine ⟨_, targetDeclarations_declares hl hd, fun target htarget decl hdecl h₁ h₂ => ?_⟩
  obtain ⟨s, hs, rfl⟩ := List.mem_map.mp htarget
  obtain ⟨call, hcall, rfl⟩ := List.mem_map.mp hdecl
  obtain ⟨a, w, z, hst⟩ := hd.stands hl hcall
  have hnaming := namingOf_stands hl hst
  rcases (locating_of_located hf).around (hd.ahead hl) s hs call hcall h₁ h₂ with hn | hn
  · rw [hn] at hnaming
    exact .inl hnaming
  · rw [hn] at hnaming
    exact .inr hnaming

/-- A declaration with a variable for its name, and a reference to a target inside of it. -/
def variableName : Text := ".target(name: x, dependencies: [.target(name: \"B\")])".toList

lemma variableName_found :
    (locateTargets variableName).outcome = .ok [⟨['B'], TargetKind.target.word, ⟨32, 50⟩⟩] := by
  decide +kernel

lemma variableName_outer : ∃ decls, targetDeclarations variableName = .ok decls ∧
    ∃ decl ∈ decls, decl.2 = ⟨0, 52⟩ := by
  have hspans : (targetDeclarations variableName).toOption.map (·.map (·.2)) = some [⟨0, 52⟩, ⟨32, 50⟩] := by
    decide +kernel
  cases hd : targetDeclarations variableName with
  | error e => simp [hd, Except.toOption] at hspans
  | ok decls =>
    rw [hd] at hspans
    have hspans : decls.map (·.2) = [⟨0, 52⟩, ⟨32, 50⟩] := Option.some.inj hspans
    obtain ⟨decl, hmem, hspan⟩ := List.mem_map.mp (show ⟨0, 52⟩ ∈ decls.map (·.2) by simp [hspans])
    exact ⟨decls, rfl, decl, hmem, hspan⟩

theorem locateTargets_around_variableName : ∃ ts decls, (locateTargets variableName).outcome = .ok ts ∧
    targetDeclarations variableName = .ok decls ∧ ∃ target ∈ ts, ∃ decl ∈ decls,
      decl.2.start < target.span.start ∧ target.span.stop < decl.2.stop ∧
        (namingOf variableName decl.2 = .ok .nameless ∨ namingOf variableName decl.2 = .ok .notLiteral) := by
  obtain ⟨decls, hd, decl, hmem, hspan⟩ := variableName_outer
  obtain ⟨decls', hd', h⟩ := locateTargets_around variableName_found
  obtain rfl := Except.ok.inj (hd.symm.trans hd')
  refine ⟨_, decls, variableName_found, hd, _, List.mem_singleton_self _, decl, hmem, ?_, ?_,
    h _ (List.mem_singleton_self _) decl hmem ?_ ?_⟩ <;> rw [hspan] <;> decide

/-- A target can be found inside of a declaration. -/
theorem not_locateTargets_outermost : ¬∀ t ts decls, (locateTargets t).outcome = .ok ts →
    targetDeclarations t = .ok decls → ∀ target ∈ ts, ∀ decl ∈ decls,
      ¬(decl.2.start < target.span.start ∧ target.span.stop < decl.2.stop) := by
  intro h
  obtain ⟨decls, hd, decl, hmem, hspan⟩ := variableName_outer
  refine h _ _ _ variableName_found hd _ (List.mem_singleton_self _) decl hmem ?_
  rw [hspan]
  decide

end PackageInstaller.Manifest
