import Mathlib.Data.List.Forall2
import PackageInstaller.Proofs.Labels

/-! The contents of a bracket group, and that the reader of argument lists finds them: one argument for
each of the cores, or none at all when a comma has nothing before it. -/

namespace PackageInstaller.Manifest

def labelOf (c : List Piece) : Option Text := (label? (textOf c)).map (·.1)

def valueOf (c : List Piece) : List Piece :=
  match label? (textOf c) with
  | none => c
  | some (_, n) => (c.drop n).dropWhile Piece.isTrivia

def argumentAt (pos : Nat) (c : List Piece) (comma : Option Nat) : Argument :=
  ⟨labelOf c, ⟨pos, pos + (textOf c).length⟩,
    ⟨pos + ((textOf c).length - (textOf (valueOf c)).length), pos + (textOf c).length⟩, comma⟩

/-- The arguments in a group whose first segment is at `pos`. -/
def argumentsFrom (pos : Nat) : List (List Piece) → Scan (List Argument)
  | [] => .ok []
  | [s] => .ok (if core s = [] then [] else
      [argumentAt (pos + (textOf (lead s)).length) (core s) none])
  | s :: rest =>
    if core s = [] then .error (.emptyElement (pos + (textOf s).length))
    else (argumentsFrom (pos + (textOf s).length + 1) rest).map
      (argumentAt (pos + (textOf (lead s)).length) (core s) (some (pos + (textOf s).length)) :: ·)

/-- The cores of segments, of which only the last may be without one. -/
def entries : List (List Piece) → Option (List (List Piece))
  | [] => some []
  | [s] => some (if core s = [] then [] else [core s])
  | s :: rest => if core s = [] then none else (entries rest).map (core s :: ·)

def contents (b : List Piece) : Option (List (List Piece)) := entries (segments b)

/-- An argument tells where a core is and what it shows. No array begins right after the core. -/
structure Reads (ps : List Piece) (item : Argument) (c : List Piece) : Prop where
  place : ∃ a q z comma, ps = a ++ c ++ q :: z ∧ q ≠ .char '[' ∧
    item = argumentAt (textOf a).length c comma
  balanced : Balanced c
  solid : Solid c
  ne_nil : c ≠ []

lemma argumentsFrom_cons {pos : Nat} {s : List Piece} {rest : List (List Piece)} (h : rest ≠ []) :
    argumentsFrom pos (s :: rest) =
      if core s = [] then .error (.emptyElement (pos + (textOf s).length))
      else (argumentsFrom (pos + (textOf s).length + 1) rest).map
        (argumentAt (pos + (textOf (lead s)).length) (core s) (some (pos + (textOf s).length)) :: ·) := by
  cases rest with
  | nil => exact absurd rfl h
  | cons r rest => rfl

lemma entries_cons {s : List Piece} {rest : List (List Piece)} (h : rest ≠ []) :
    entries (s :: rest) = if core s = [] then none else (entries rest).map (core s :: ·) := by
  cases rest with
  | nil => exact absurd rfl h
  | cons r rest => rfl

lemma entries_cons_of_core {s : List Piece} (h : core s ≠ []) (rest : List (List Piece)) :
    entries (s :: rest) = (entries rest).map (core s :: ·) := by
  cases rest with
  | nil => simp [entries, h]
  | cons r rest => rw [entries_cons (List.cons_ne_nil r rest), if_neg h]

lemma entries_append {u : List (List Piece)} (hu : ∀ s ∈ u, core s ≠ []) (v : List (List Piece)) :
    entries (u ++ v) = (entries v).map (u.map core ++ ·) := by
  induction u with
  | nil => simp
  | cons s u ih =>
    rw [List.cons_append, entries_cons_of_core (hu s List.mem_cons_self),
      ih fun r hr => hu r (List.mem_cons_of_mem _ hr), Option.map_map]
    rfl

lemma core_ne_nil_of_entries {u v : List (List Piece)} {cs : List (List Piece)}
    (h : entries (u ++ v) = some cs) (hv : v ≠ []) : ∀ s ∈ u, core s ≠ [] := by
  induction u generalizing cs with
  | nil => simp
  | cons s u ih =>
    rw [List.cons_append, entries_cons (by simp [hv])] at h
    split_ifs at h with hs
    obtain ⟨later, hlater, -⟩ := Option.map_eq_some_iff.mp h
    intro r hr
    rcases List.mem_cons.mp hr with rfl | hr
    · exact hs
    · exact ih hlater r hr

lemma exists_label {c : List Piece} {name : Text} {n : Nat} (h : Lexed c)
    (hl : label? (textOf c) = some (name, n)) :
    ∃ w c', c = chars w ++ c' ∧ w.length = n ∧ ∀ d ∈ w, Ordinary d := by
  obtain ⟨w, r, ht, rfl, hw⟩ := label?_eq_some hl
  obtain ⟨c', hc, -⟩ := h.exists_chars ht fun d hd => (hw d hd).1
  exact ⟨w, c', hc, rfl, hw⟩

lemma valueOf_of_label {w name : Text} {c' : List Piece} {n : Nat}
    (hl : label? (textOf (chars w ++ c')) = some (name, n)) (hw : w.length = n) :
    valueOf (chars w ++ c') = c'.dropWhile Piece.isTrivia := by
  rw [valueOf, hl, ← hw, ← chars_length w]
  simp only [List.drop_left]

lemma trivial_balanced {l : List Piece} (h : Trivial l) : Balanced l := by
  induction l with
  | nil => rfl
  | cons p l ih =>
    have hl := ih fun q hq => h q (List.mem_cons_of_mem _ hq)
    have hp := h p List.mem_cons_self
    cases p with
    | literal m => exact hl
    | char c => rwa [Balanced, walk_inner (ordinary_of_isBlank hp).2.1]

/-- What stands before the value of an argument opens no bracket. -/
lemma exists_before_value {c : List Piece} (h : Lexed c) :
    ∃ w, c = w ++ valueOf c ∧ Balanced w := by
  cases hl : label? (textOf c) with
  | none => exact ⟨[], by rw [valueOf, hl]; rfl, .nil⟩
  | some r =>
    obtain ⟨name, n⟩ := r
    obtain ⟨w, c', rfl, hn, hw⟩ := exists_label h hl
    refine ⟨chars w ++ c'.takeWhile Piece.isTrivia, ?_, ?_⟩
    · rw [valueOf_of_label hl hn, List.append_assoc, List.takeWhile_append_dropWhile]
    · exact (balanced_chars fun d hd => (hw d hd).2.1).append
        (trivial_balanced fun p hp => List.mem_takeWhile_imp hp)

lemma slice_mid (u v w : Text) : Text.slice (u ++ v ++ w) u.length (u.length + v.length) = v := by
  rw [Text.slice, List.append_assoc, List.drop_left, Nat.add_sub_cancel_left, List.take_left]

lemma argumentOf_core {u z : Text} {c : List Piece} (h : LexedBefore z c) (comma : Option Nat) :
    argumentOf (u ++ textOf c ++ z) ⟨⟨u.length, u.length + (textOf c).length⟩, comma⟩ =
      .ok (argumentAt u.length c comma) := by
  unfold argumentOf
  simp only [slice_mid]
  cases hl : label? (textOf c) with
  | none => simp [argumentAt, labelOf, valueOf, hl]
  | some r =>
    obtain ⟨name, n⟩ := r
    obtain ⟨w, c', rfl, hn, hw⟩ := exists_label h.lexed hl
    have hd : (u ++ textOf (chars w ++ c') ++ z).drop (u.length + n) = textOf c' ++ z := by
      have : u.length + n = (u ++ w).length := by simp [hn]
      rw [this, show u ++ textOf (chars w ++ c') ++ z = (u ++ w) ++ (textOf c' ++ z) by simp,
        List.drop_left]
    have hlen := congrArg (fun ps => (textOf ps).length)
      (List.takeWhile_append_dropWhile (p := Piece.isTrivia) (l := c'))
    simp only [textOf_append, List.length_append] at hlen
    simp only [skipTrivia, hd]
    rw [triviaEndFrom_textOf (lexedBefore_append.mp h).2
      (by simp only [textOf_append, textOf_chars, List.length_append]; omega),
      argumentAt, labelOf, hl, valueOf_of_label hl hn]
    simp only [Except.map, Option.map_some, textOf_append, textOf_chars, List.length_append, hn]
    congr 3
    omega

lemma elementsFrom_closer (closer : Nat) (current : Option Span) (t : Text) :
    elementsFrom closer 0 closer current t = .ok (closeElement current none) := by
  cases t <;> simp [elementsFrom]

lemma elementsFrom_comma {closer pos : Nat} (current : Option Span) (t : Text) (h : pos < closer) :
    elementsFrom closer 0 pos current (',' :: t) =
      if current.isNone then .error (.emptyElement pos)
      else (elementsFrom closer 0 (pos + 1) none t).map (closeElement current (some pos) ++ ·) := by
  rw [elementsFrom, if_neg (by omega), literalLength?_of_plain t (by decide)]
  rfl

/-- A segment is read as the argument that its core shows, wherever it stands. -/
lemma argumentOf_segment {u z : Text} {s : List Piece} (h : LexedBefore z s) (comma : Option Nat) :
    argumentOf (u ++ textOf s ++ z)
        ⟨⟨u.length + (textOf (lead s)).length, u.length + (textOf (trimmed s)).length⟩, comma⟩ =
      .ok (argumentAt (u.length + (textOf (lead s)).length) (core s) comma) := by
  obtain ⟨r, hr, -⟩ := exists_trail s
  have htext : u ++ textOf s ++ z = u ++ textOf (lead s) ++ textOf (core s) ++ (textOf r ++ z) := by
    conv_lhs => rw [hr]
    simp
  have hcore : LexedBefore (textOf r ++ z) (core s) := by
    rw [hr, List.append_assoc, lexedBefore_append, lexedBefore_append] at h
    exact h.2.1
  have hstart : u.length + (textOf (lead s)).length = (u ++ textOf (lead s)).length := by simp
  have hstop : u.length + (textOf (trimmed s)).length =
      (u ++ textOf (lead s)).length + (textOf (core s)).length := by
    rw [← lead_append_core]
    simp only [textOf_append, List.length_append]
    omega
  rw [htext, hstart, hstop]
  exact argumentOf_core hcore comma

lemma closeElement_absorbed {s : List Piece} (hc : core s ≠ []) (pos : Nat) (comma : Option Nat) :
    closeElement (absorbed pos none s) comma =
      [⟨⟨pos + (textOf (lead s)).length, pos + (textOf (trimmed s)).length⟩, comma⟩] := by
  rw [absorbed, if_neg hc]
  rfl

lemma elementsFrom_next {closer pos : Nat} {s : List Piece} {t : Text} (hs : Segment s)
    (h : LexedBefore (',' :: t) s) (hc : pos + (textOf s).length < closer) :
    elementsFrom closer 0 pos none (textOf s ++ ',' :: t) =
      if core s = [] then .error (.emptyElement (pos + (textOf s).length))
      else (elementsFrom closer 0 (pos + (textOf s).length + 1) none t).map
        (⟨⟨pos + (textOf (lead s)).length, pos + (textOf (trimmed s)).length⟩,
          some (pos + (textOf s).length)⟩ :: ·) := by
  rw [elementsFrom_segment none hs h (Nat.le_of_lt hc), elementsFrom_comma _ _ hc]
  by_cases hcore : core s = []
  · rw [if_pos hcore, absorbed, if_pos hcore, if_pos Option.isNone_none]
  · rw [if_neg hcore, closeElement_absorbed hcore, if_neg (by simp [absorbed, hcore, extend])]
    rfl

lemma elementsFrom_joined {t u z : Text} {closer : Nat} {segs : List (List Piece)} (hn : segs ≠ [])
    (hs : ∀ s ∈ segs, Segment s) (h : LexedBefore z (joined segs)) (ht : t = u ++ textOf (joined segs) ++ z)
    (hc : closer = u.length + (textOf (joined segs)).length) :
    ((elementsFrom closer 0 u.length none (textOf (joined segs) ++ z)).bind fun elements =>
      elements.mapM (argumentOf t)) = argumentsFrom u.length segs := by
  induction segs generalizing u with
  | nil => exact absurd rfl hn
  | cons s rest ih =>
    have hseg := hs s List.mem_cons_self
    by_cases hrest : rest = []
    · subst hrest
      simp only [joined] at h ht hc ⊢
      rw [hc, elementsFrom_segment none hseg h (Nat.le_refl _), elementsFrom_closer, argumentsFrom]
      split_ifs with hcore
      · rw [absorbed, if_pos hcore]
        rfl
      · rw [closeElement_absorbed hcore, Except.bind, List.mapM_cons, ht, argumentOf_segment h]
        rfl
    · rw [joined_cons hrest] at h ht hc ⊢
      obtain ⟨hlex, hlater⟩ := lexedBefore_append.mp h
      have hj : textOf (s ++ comma :: joined rest) ++ z = textOf s ++ ',' :: (textOf (joined rest) ++ z) := by
        simp [comma, Piece.text]
      have hlex' : LexedBefore (',' :: (textOf (joined rest) ++ z)) s := by
        simpa [comma, Piece.text] using hlex
      have hlen : (textOf (s ++ comma :: joined rest)).length =
          (textOf s).length + 1 + (textOf (joined rest)).length := by
        simp [comma, Piece.text]
        omega
      have hpos : (u ++ textOf s ++ [',']).length = u.length + (textOf s).length + 1 := by
        simp
        omega
      have hstep := ih hrest (fun t ht => hs t (List.mem_cons_of_mem _ ht)) (u := u ++ textOf s ++ [','])
        hlater.tail (by rw [ht, List.append_assoc u, hj]; simp) (by omega)
      rw [hpos] at hstep
      rw [hj, elementsFrom_next hseg hlex' (by omega), argumentsFrom_cons hrest]
      by_cases hcore : core s = []
      · rw [if_pos hcore, if_pos hcore]
        rfl
      · rw [if_neg hcore, if_neg hcore, ← hstep]
        cases elementsFrom closer 0 (u.length + (textOf s).length + 1) none (textOf (joined rest) ++ z) with
        | error e => rfl
        | ok elements =>
          have harg := argumentOf_segment (u := u) hlex' (some (u.length + (textOf s).length))
          rw [List.append_assoc, ← hj, ← List.append_assoc, ← ht] at harg
          simp only [Except.map, Except.bind, List.mapM_cons, harg]
          cases elements.mapM (argumentOf t) <;> rfl

theorem splitArguments_eq {o k : Char} {b : List Piece} {u z : Text} (ho : closerOf? o = some k)
    (hb : Balanced b) (h : LexedBefore (k :: z) b) :
    splitArguments (u ++ o :: (textOf b ++ k :: z)) u.length =
      (argumentsFrom (u.length + 1) (segments b)).map fun items =>
        ⟨u.length, u.length + (textOf b).length + 1, items⟩ := by
  have hpos : (u ++ [o]).length = u.length + 1 := by simp
  have htext : u ++ o :: (textOf b ++ k :: z) = u ++ [o] ++ textOf b ++ k :: z := by simp
  have hdrop : (u ++ [o] ++ textOf b ++ k :: z).drop (u.length + 1) = textOf b ++ k :: z := by
    rw [← hpos, List.append_assoc (u ++ [o]), List.drop_left]
  have key := elementsFrom_joined (u := u ++ [o]) (segments_ne_nil b) (fun _ hs => segment_of_mem hb hs)
    (by rwa [joined_segments]) rfl rfl
  rw [joined_segments, hpos] at key
  rw [← key, splitArguments, findClosing_group u ho hb h]
  simp only [bind, Except.bind, htext, hdrop, pure, Except.pure]
  rw [show u.length + (textOf b).length + 1 = u.length + 1 + (textOf b).length by omega]
  cases elementsFrom (u.length + 1 + (textOf b).length) 0 (u.length + 1) none (textOf b ++ k :: z) with
  | error e => rfl
  | ok elements =>
    simp only
    cases elements.mapM (argumentOf (u ++ [o] ++ textOf b ++ k :: z)) <;> rfl

lemma core_balanced {s : List Piece} (h : Balanced s) : Balanced (core s) := by
  obtain ⟨r, hr, hrt⟩ := exists_trail s
  rw [hr] at h
  exact ((trivial_balanced (lead_trivial s)).right ((trivial_balanced hrt).left h))

lemma reads_core {ps a z : List Piece} {s : List Piece} {q : Piece} (comma : Option Nat)
    (hps : ps = a ++ s ++ q :: z) (hq : q.isTrivia = true ∨ q = .char ',' ∨ ∃ k, q = .char k ∧
      isCloser k = true) (hs : Segment s) (hc : core s ≠ []) :
    Reads ps (argumentAt ((textOf a).length + (textOf (lead s)).length) (core s) comma) (core s) := by
  have hbracket : ∀ p : Piece, (p.isTrivia = true ∨ p = .char ',' ∨ ∃ k, p = .char k ∧
      isCloser k = true) → p ≠ .char '[' := by
    rintro p hp rfl
    rcases hp with hp | hp | ⟨k, hk, hkc⟩
    · exact absurd hp (by decide)
    · simp at hp
    · cases hk
      exact absurd hkc (by decide)
  refine ⟨?_, core_balanced hs.balanced, core_solid s, hc⟩
  obtain ⟨r, hr, hrt⟩ := exists_trail s
  have hlen : (textOf a).length + (textOf (lead s)).length = (textOf (a ++ lead s)).length := by simp
  rw [hlen]
  cases r with
  | nil =>
    refine ⟨a ++ lead s, q, z, comma, ?_, hbracket q hq, rfl⟩
    rw [hps]
    conv_lhs => rw [hr]
    simp
  | cons p r =>
    refine ⟨a ++ lead s, p, r ++ q :: z, comma, ?_, hbracket p (.inl (hrt p List.mem_cons_self)), rfl⟩
    rw [hps]
    conv_lhs => rw [hr]
    simp

lemma argumentsFrom_entries {ps a z : List Piece} {k : Char} {segs : List (List Piece)}
    (hk : isCloser k = true) (hps : ps = a ++ joined segs ++ .char k :: z)
    (hs : ∀ s ∈ segs, Segment s) :
    (entries segs = none ∧ ∃ pos, argumentsFrom (textOf a).length segs = .error (.emptyElement pos)) ∨
      ∃ items cs, entries segs = some cs ∧ argumentsFrom (textOf a).length segs = .ok items ∧
        List.Forall₂ (Reads ps) items cs := by
  induction segs generalizing a with
  | nil => exact .inr ⟨[], [], rfl, rfl, .nil⟩
  | cons s rest ih =>
    have hseg := hs s List.mem_cons_self
    by_cases hrest : rest = []
    · subst hrest
      refine .inr ?_
      rw [argumentsFrom, entries]
      split_ifs with hc
      · exact ⟨[], [], rfl, rfl, .nil⟩
      · exact ⟨_, _, rfl, rfl, .cons (reads_core none hps (.inr (.inr ⟨k, rfl, hk⟩)) hseg hc) .nil⟩
    · rw [joined_cons hrest] at hps
      rw [argumentsFrom_cons hrest, entries_cons hrest]
      split_ifs with hc
      · exact .inl ⟨rfl, _, rfl⟩
      · have hpos : (textOf a).length + (textOf s).length + 1 =
            (textOf (a ++ s ++ [comma])).length := by
          simp [comma, Piece.text]
          omega
        have hread := reads_core (some ((textOf a).length + (textOf s).length)) (q := comma)
          (z := joined rest ++ .char k :: z) (by simpa using hps) (.inr (.inl rfl)) hseg hc
        rw [hpos]
        rcases ih (a := a ++ s ++ [comma]) (by simpa using hps)
          (fun t ht => hs t (List.mem_cons_of_mem _ ht)) with ⟨he, pos, ha⟩ | ⟨items, cs, he, ha, hf⟩
        · exact .inl ⟨by rw [he]; rfl, pos, by rw [ha]; rfl⟩
        · exact .inr ⟨_, _, by rw [he]; rfl, by rw [ha]; rfl, .cons hread hf⟩

/-- What stands before a segment that others precede. -/
def leading (u : List (List Piece)) : List Piece := u.flatMap (· ++ [comma])

/-- What stands after a segment that others follow. -/
def following (v : List (List Piece)) : List Piece := v.flatMap (comma :: ·)

lemma joined_head (s : List Piece) (v : List (List Piece)) : joined (s :: v) = s ++ following v := by
  induction v generalizing s with
  | nil => simp [joined, following]
  | cons r v ih =>
    rw [joined_cons (List.cons_ne_nil r v), ih]
    simp [following]

lemma joined_mid (u : List (List Piece)) (s : List Piece) (v : List (List Piece)) :
    joined (u ++ s :: v) = leading u ++ s ++ following v := by
  induction u with
  | nil => exact joined_head s v
  | cons r u ih =>
    rw [List.cons_append, joined_cons (by simp), ih]
    simp [leading]

lemma following_eq {v : List (List Piece)} (h : v ≠ []) : following v = comma :: joined v := by
  obtain ⟨s, v, rfl⟩ := List.exists_cons_of_ne_nil h
  rw [joined_head, following, List.flatMap_cons]
  rfl

lemma leading_balanced {u : List (List Piece)} (h : ∀ s ∈ u, Segment s) : Balanced (leading u) := by
  induction u with
  | nil => exact .nil
  | cons s u ih =>
    have hs := (h s List.mem_cons_self).balanced
    have hc : Balanced [comma] := rfl
    rw [leading, List.flatMap_cons]
    exact (hs.append hc).append (ih fun r hr => h r (List.mem_cons_of_mem _ hr))

lemma argumentsFrom_split {segs : List (List Piece)} {pos : Nat} {before after : List Argument}
    {item : Argument} (h : argumentsFrom pos segs = .ok (before ++ item :: after)) :
    ∃ u s v, segs = u ++ s :: v ∧
      List.Forall₂ (fun i r => i.label = labelOf (core r) ∧ core r ≠ []) before u ∧ core s ≠ [] ∧
      item = argumentAt (pos + (textOf (leading u)).length + (textOf (lead s)).length) (core s)
        (if v = [] then none else some (pos + (textOf (leading u)).length + (textOf s).length)) := by
  induction segs generalizing pos before with
  | nil => simp [argumentsFrom] at h
  | cons s rest ih =>
    by_cases hrest : rest = []
    · subst hrest
      rw [argumentsFrom] at h
      split_ifs at h with hc
      · simp at h
      · have h := Except.ok.inj h
        cases before with
        | nil =>
          obtain ⟨rfl, -⟩ := List.cons.inj h
          exact ⟨[], s, [], rfl, .nil, hc, by simp [leading]⟩
        | cons i before => simp at h
    · rw [argumentsFrom_cons hrest] at h
      split_ifs at h with hc
      obtain ⟨later, hl, h⟩ := map_eq_ok.mp h
      cases before with
      | nil =>
        obtain ⟨rfl, -⟩ := List.cons.inj h
        exact ⟨[], s, rest, rfl, .nil, hc, by simp [leading, hrest]⟩
      | cons i before =>
        obtain ⟨rfl, rfl⟩ := List.cons.inj h
        obtain ⟨u, r, v, rfl, hu, hr, rfl⟩ := ih hl
        have hpos : ∀ n, pos + (textOf s).length + 1 + (textOf (leading u)).length + n =
            pos + (textOf (leading (s :: u))).length + n := by
          intro n
          simp [leading, comma, Piece.text]
          omega
        exact ⟨s :: u, r, v, rfl, .cons ⟨rfl, hc⟩ hu, hr, by rw [hpos, hpos]⟩

lemma exists_segment_of_entries {segs cs : List (List Piece)} (h : entries segs = some cs) :
    ∀ c ∈ cs, ∃ s ∈ segs, core s = c ∧ c ≠ [] := by
  induction segs generalizing cs with
  | nil =>
    obtain rfl : [] = cs := Option.some.inj h
    simp
  | cons s segs ih =>
    by_cases hs : core s = []
    · by_cases hn : segs = []
      · subst hn
        rw [entries, if_pos hs] at h
        obtain rfl := Option.some.inj h
        simp
      · rw [entries_cons hn, if_pos hs] at h
        simp at h
    · rw [entries_cons_of_core hs] at h
      obtain ⟨later, hlater, rfl⟩ := Option.map_eq_some_iff.mp h
      intro c hc
      rcases List.mem_cons.mp hc with rfl | hc
      · exact ⟨s, List.mem_cons_self, rfl, hs⟩
      · obtain ⟨t, ht, htc⟩ := ih hlater c hc
        exact ⟨t, List.mem_cons_of_mem _ ht, htc⟩

lemma core_part (s : List Piece) : core s <:+: s := by
  obtain ⟨r, hr, -⟩ := exists_trail s
  exact ⟨lead s, r, hr.symm⟩

lemma mem_contents {b : List Piece} {cs : List (List Piece)} (hb : Balanced b) (h : contents b = some cs) :
    ∀ c ∈ cs, c <:+: b ∧ Balanced c ∧ c ≠ [] := by
  intro c hc
  obtain ⟨s, hs, rfl, hn⟩ := exists_segment_of_entries h c hc
  refine ⟨?_, core_balanced (segment_of_mem hb hs).balanced, hn⟩
  obtain ⟨u, v, huv⟩ := List.append_of_mem hs
  have hsb : s <:+: b := ⟨leading u, following v, by rw [← joined_mid, ← huv, joined_segments]⟩
  exact (core_part s).trans hsb

lemma valueOf_suffix {c : List Piece} (hl : Lexed c) : valueOf c <:+ c := by
  obtain ⟨w, hw, -⟩ := exists_before_value hl
  exact ⟨w, hw.symm⟩

lemma valueOf_balanced {c : List Piece} (hl : Lexed c) (hb : Balanced c) : Balanced (valueOf c) := by
  obtain ⟨w, hw, hwb⟩ := exists_before_value hl
  exact hwb.right (hw ▸ hb)

/-- The items of the list are read where the elements of the group `b` stand, which opens after `a`. -/
structure Lists (ps a b : List Piece) (list : ArgumentList) (cs : List (List Piece)) : Prop where
  opener : list.opener = (textOf a).length
  closer : list.closer = (textOf a).length + (textOf b).length + 1
  elements : contents b = some cs
  items : argumentsFrom ((textOf a).length + 1) (segments b) = .ok list.items
  reads : List.Forall₂ (Reads ps) list.items cs

/-- `r` is what comes of reading the group that opens after `a` and holds `b`. -/
def Listed (ps a b : List Piece) (r : Scan ArgumentList) : Prop :=
  (contents b = none ∧ ∃ pos, r = .error (.emptyElement pos)) ∨ ∃ list cs, Lists ps a b list cs ∧ r = .ok list

lemma Listed.lists {ps a b : List Piece} {r : Scan ArgumentList} {cs : List (List Piece)} (h : Listed ps a b r)
    (hcs : contents b = some cs) : ∃ list, r = .ok list ∧ Lists ps a b list cs := by
  rcases h with ⟨hn, -⟩ | ⟨list, cs', hlist, hr⟩
  · simp [hn] at hcs
  · obtain rfl := Option.some.inj (hcs.symm.trans hlist.elements)
    exact ⟨list, hr, hlist⟩

/-- An argument list is what the group between its brackets contains. -/
theorem splitArguments_listed {ps a b z : List Piece} {o k : Char} (h : Lexed ps)
    (ho : closerOf? o = some k) (hb : Balanced b) (hps : ps = a ++ .char o :: (b ++ .char k :: z)) :
    Listed ps a b (splitArguments (textOf ps) (textOf a).length) := by
  have hpos : (textOf a).length + 1 = (textOf (a ++ [Piece.char o])).length := by simp [Piece.text]
  have hk := (isCloser_of_closerOf? ho).2.2
  subst hps
  have hlex : LexedBefore (k :: textOf z) b := by
    simpa [Piece.text] using (lexed_append.mp h.right.tail).1
  have htext : textOf (a ++ .char o :: (b ++ .char k :: z)) = textOf a ++ o :: (textOf b ++ k :: textOf z) := by
    simp [Piece.text]
  rw [htext, splitArguments_eq ho hb hlex, hpos]
  have hall : a ++ .char o :: (b ++ .char k :: z) =
      a ++ [.char o] ++ joined (segments b) ++ .char k :: z := by
    rw [joined_segments]
    simp
  rcases argumentsFrom_entries (a := a ++ [.char o]) (z := z) hk hall
    (fun _ hs => segment_of_mem hb hs) with ⟨he, pos, ha⟩ | ⟨items, cs, he, ha, hf⟩
  · exact .inl ⟨he, pos, by rw [ha]; rfl⟩
  · exact .inr ⟨_, cs, ⟨rfl, rfl, he, hpos ▸ ha, hf⟩, by rw [ha]; rfl⟩

end PackageInstaller.Manifest
