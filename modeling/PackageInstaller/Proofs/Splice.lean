import PackageInstaller.Proofs.Declarations

/-! Exchanging pieces for others, where both bracket evenly. Deep inside a group the exchange touches one
argument only, and that argument keeps its label and remains what it was: no string, an array, a package
declaration. -/

namespace PackageInstaller.Manifest

structure Splice where
  before : List Piece
  old : List Piece
  new : List Piece
  after : List Piece

namespace Splice

def source (e : Splice) : List Piece := e.before ++ e.old ++ e.after

def target (e : Splice) : List Piece := e.before ++ e.new ++ e.after

structure Even (e : Splice) : Prop where
  old : Balanced e.old
  new : Balanced e.new

/-- The exchange makes `x'` of `x`, with `u` before the place and `v` after it. -/
structure Around (e : Splice) (u v x x' : List Piece) : Prop where
  source : x = u ++ e.old ++ v
  target : x' = u ++ e.new ++ v
  left : u <:+ e.before
  right : v <+: e.after

/-- The exchange leaves `x` alone, or takes place inside of a bracket group of it. -/
def Deep (e : Splice) (x x' : List Piece) : Prop :=
  x' = x ∨ ∃ u v k s, e.Around u v x x' ∧ walk [] u = some (k :: s)

/-- The exchange leaves alone what stands between two brackets, or takes place in it. -/
def Within (e : Splice) (o k : Char) (b b' : List Piece) : Prop :=
  b' = b ∨ ∃ u v s, e.Around u v b b' ∧ walk [] u = some s ∧ .char o :: u <:+ e.before ∧
    v ++ [.char k] <+: e.after

end Splice

lemma exists_segment_around {segs : List (List Piece)} {u m v : List Piece} {k : Char} {s : List Char}
    (hs : ∀ t ∈ segs, Segment t) (hn : segs ≠ []) (hm : Balanced m)
    (h : joined segs = u ++ m ++ v) (hw : walk [] u = some (k :: s)) :
    ∃ before a b later, segs = before ++ (a ++ m ++ b) :: later ∧ walk [] a = some (k :: s) ∧
      a <:+ u ∧ b <+: v ∧ ∀ n, joined (before ++ (a ++ n ++ b) :: later) = u ++ n ++ v := by
  induction segs generalizing u with
  | nil => exact absurd rfl hn
  | cons t rest ih =>
    have ht := hs t List.mem_cons_self
    by_cases hrest : rest = []
    · subst hrest
      exact ⟨[], u, v, [], by simpa [joined] using h, hw, List.suffix_refl u, List.prefix_refl v,
        fun n => rfl⟩
    · rw [joined_cons hrest, List.append_assoc] at h
      rcases append_eq_append_cons h.symm with ⟨t', rfl, ht'⟩ | ⟨u', rfl, hu'⟩
      · rcases append_eq_append_cons ht' with ⟨d, rfl, rfl⟩ | ⟨d, rfl, -⟩
        · refine ⟨[], u, d, rest, by simp, hw, List.suffix_refl u, ⟨comma :: joined rest, rfl⟩, fun n => ?_⟩
          rw [List.nil_append, joined_cons hrest]
          simp
        · -- the comma would stand inside of `m`, where brackets are open
          obtain ⟨t'', ht''⟩ := exists_walk_left hm
          have hb := ht.balanced
          rw [Balanced, walk_append, hw, Option.bind_some] at hb
          have := walk_below (k :: s) ht''
          rw [List.nil_append, hb] at this
          simp at this
      · rw [walk_append, ht.balanced, Option.bind_some, comma, walk_inner (by decide)] at hw
        obtain ⟨before, a, b, later, rfl, ha, hsuf, hpre, hj⟩ := ih
          (fun t ht => hs t (List.mem_cons_of_mem _ ht)) hrest (by simpa using hu') hw
        refine ⟨t :: before, a, b, later, rfl, ha, hsuf.trans ⟨t ++ [comma], by simp⟩, hpre, fun n => ?_⟩
        rw [List.cons_append, joined_cons (by simp), hj]
        simp

namespace Splice

variable {e : Splice} {x x' b b' c c' v v' : List Piece}

lemma Deep.refl (x : List Piece) : e.Deep x x := .inl rfl

lemma Deep.on_segments (he : e.Even) (hb : Balanced b) (h : e.Deep b b') :
    List.Forall₂ e.Deep (segments b) (segments b') := by
  rcases h with rfl | ⟨u, v, k, s, ha, hw⟩
  · exact List.forall₂_same.mpr fun t _ => .refl t
  · obtain ⟨before, a, d, later, hseg, hwa, hau, hdv, hj⟩ := exists_segment_around
      (fun t ht => segment_of_mem hb ht) (segments_ne_nil b) he.old
      ((joined_segments b).trans ha.source) hw
    have hall : ∀ t ∈ before ++ (a ++ e.new ++ d) :: later, Segment t := by
      intro t ht
      have hold : ∀ t ∈ before ++ (a ++ e.old ++ d) :: later, Segment t := by
        rw [← hseg]
        exact fun t ht => segment_of_mem hb ht
      rcases List.mem_append.mp ht with ht | ht
      · exact hold t (List.mem_append_left _ ht)
      · rcases List.mem_cons.mp ht with rfl | ht
        · exact (hold _ (List.mem_append_right _ List.mem_cons_self)).exchange hwa he.old he.new
        · exact hold t (List.mem_append_right _ (List.mem_cons_of_mem _ ht))
    have hnew : segments b' = before ++ (a ++ e.new ++ d) :: later := by
      rw [ha.target, ← hj e.new, segments_joined (by simp) hall]
    rw [hseg, hnew]
    refine List.rel_append (List.forall₂_same.mpr fun t _ => .refl t) (.cons ?_ ?_)
    · exact .inr ⟨a, d, k, s, ⟨rfl, rfl, hau.trans ha.left, hdv.trans ha.right⟩, hwa⟩
    · exact List.forall₂_same.mpr fun t _ => .refl t

lemma dropWhile_walk {u : List Piece} {k : Char} {s : List Char} (h : walk [] u = some (k :: s)) :
    walk [] (u.dropWhile Piece.isTrivia) = some (k :: s) := by
  have ht : Balanced (u.takeWhile Piece.isTrivia) :=
    trivial_balanced fun p hp => List.mem_takeWhile_imp hp
  rwa [← List.takeWhile_append_dropWhile (p := Piece.isTrivia) (l := u), walk_append, ht,
    Option.bind_some] at h

lemma dropWhile_ne_nil {u : List Piece} {k : Char} {s : List Char} (h : walk [] u = some (k :: s)) :
    u.dropWhile Piece.isTrivia ≠ [] := by
  intro hn
  have := dropWhile_walk h
  rw [hn] at this
  simp at this

lemma dropWhile_append_walk {u : List Piece} {k : Char} {s : List Char}
    (h : walk [] u = some (k :: s)) (y : List Piece) :
    (u ++ y).dropWhile Piece.isTrivia = u.dropWhile Piece.isTrivia ++ y ∧
      (u ++ y).takeWhile Piece.isTrivia = u.takeWhile Piece.isTrivia := by
  have hd : (u ++ y).dropWhile Piece.isTrivia = u.dropWhile Piece.isTrivia ++ y := by
    rw [List.dropWhile_append, if_neg (by simpa using dropWhile_ne_nil h)]
  refine ⟨hd, ?_⟩
  have h₁ := List.takeWhile_append_dropWhile (p := Piece.isTrivia) (l := u ++ y)
  have h₂ := List.takeWhile_append_dropWhile (p := Piece.isTrivia) (l := u)
  rw [hd, ← List.append_assoc] at h₁
  exact List.append_cancel_right ((List.append_cancel_right h₁).trans h₂.symm)

lemma Deep.on_core (he : e.Even) (hb : Balanced x) (h : e.Deep x x') :
    e.Deep (core x) (core x') ∧ lead x' = lead x := by
  rcases h with rfl | ⟨u, v, k, s, ha, hw⟩
  · exact ⟨.refl _, rfl⟩
  · have hv : trimmed v ≠ [] := by
      intro hn
      have hvt := trivial_balanced (trimmed_eq_nil.mp hn)
      rw [ha.source, Balanced, walk_append, walk_append, hw, Option.bind_some, he.old.walk,
        Option.bind_some, hvt.walk] at hb
      simp at hb
    have htrim : ∀ m, trimmed (u ++ m ++ v) = u ++ (m ++ trimmed v) := by
      intro m
      rw [trimmed_append, if_neg hv, List.append_assoc]
    have hcore : ∀ m, core (u ++ m ++ v) = u.dropWhile Piece.isTrivia ++ m ++ trimmed v := by
      intro m
      rw [core, htrim, (dropWhile_append_walk hw _).1, List.append_assoc]
    have hlead : ∀ m, lead (u ++ m ++ v) = u.takeWhile Piece.isTrivia := by
      intro m
      rw [lead, htrim, (dropWhile_append_walk hw _).2]
    rw [ha.source, ha.target, hlead, hlead, hcore, hcore]
    refine ⟨.inr ⟨_, _, k, s, ⟨rfl, rfl, ?_, ?_⟩, dropWhile_walk hw⟩, rfl⟩
    · exact (List.dropWhile_suffix _).trans ha.left
    · exact (List.rdropWhile_prefix Piece.isTrivia v).trans ha.right

lemma Deep.eq_nil (h : e.Deep c c') : c' = [] ↔ c = [] := by
  rcases h with rfl | ⟨u, v, k, s, ha, hw⟩
  · rfl
  · have hu : u ≠ [] := by
      rintro rfl
      simp at hw
    rw [ha.source, ha.target]
    simp [hu]

lemma Deep.on_entries (he : e.Even) {segs segs' : List (List Piece)}
    (h : List.Forall₂ e.Deep segs segs') (hb : ∀ s ∈ segs, Balanced s) :
    Option.Rel (List.Forall₂ e.Deep) (entries segs) (entries segs') := by
  induction h with
  | nil => exact .some .nil
  | @cons s s' rest rest' hs hrest ih =>
    have hcore := (hs.on_core he (hb s List.mem_cons_self)).1
    have ih := ih fun t ht => hb t (List.mem_cons_of_mem _ ht)
    cases hrest with
    | nil =>
      rw [entries, entries]
      by_cases hc : core s = []
      · rw [if_pos hc, if_pos (hcore.eq_nil.mpr hc)]
        exact .some .nil
      · rw [if_neg hc, if_neg (mt hcore.eq_nil.mp hc)]
        exact .some (.cons hcore .nil)
    | @cons t t' rest rest' =>
      rw [entries_cons (List.cons_ne_nil _ _), entries_cons (List.cons_ne_nil _ _)]
      generalize entries (t :: rest) = later at ih ⊢
      generalize entries (t' :: rest') = later' at ih ⊢
      by_cases hc : core s = []
      · rw [if_pos hc, if_pos (hcore.eq_nil.mpr hc)]
        exact .none
      · rw [if_neg hc, if_neg (mt hcore.eq_nil.mp hc)]
        cases ih with
        | none => exact .none
        | some h => exact .some (.cons hcore h)

/-- Arguments that the exchange does not touch from outside stay the same in number, order and kind. -/
theorem Deep.on_contents (he : e.Even) (hb : Balanced b) (h : e.Deep b b') :
    Option.Rel (List.Forall₂ e.Deep) (contents b) (contents b') :=
  Deep.on_entries he (h.on_segments he hb) fun _ hs => (segment_of_mem hb hs).balanced

/-- Where the exchange takes place inside of a group, the two texts agree up to the bracket that opens it. -/
lemma Around.texts {u v : List Piece} {k : Char} {s : List Char} (h : e.Around u v x x')
    (hw : walk [] u = some (k :: s)) : ∃ y o z, u = y ++ .char o :: z ∧ closerOf? o = some k ∧
      textOf x = textOf y ++ o :: textOf (z ++ e.old ++ v) ∧
        textOf x' = textOf y ++ o :: textOf (z ++ e.new ++ v) := by
  obtain ⟨y, o, z, rfl, ho, -, -⟩ := exists_opener hw
  exact ⟨y, o, z, rfl, ho, by simp [h.source, Piece.text], by simp [h.target, Piece.text]⟩

lemma Deep.label?_eq (h : e.Deep c c') : label? (textOf c') = label? (textOf c) := by
  rcases h with rfl | ⟨u, v, k, s, ha, hw⟩
  · rfl
  · obtain ⟨y, o, z, -, ho, htext, htext'⟩ := ha.texts hw
    rw [htext, htext']
    exact (label?_opener ho _ _ _).1

lemma Deep.declarationLength?_eq (h : e.Deep v v') :
    declarationLength? (textOf v') = declarationLength? (textOf v) := by
  rcases h with rfl | ⟨u, y, k, s, ha, hw⟩
  · rfl
  · obtain ⟨a, o, z, -, ho, htext, htext'⟩ := ha.texts hw
    rw [htext, htext']
    exact declarationLength?_opener ho _ _ _

lemma Deep.on_value (hl : Lexed c) (h : e.Deep c c') :
    labelOf c' = labelOf c ∧ e.Deep (valueOf c) (valueOf c') := by
  have hlabel := h.label?_eq
  refine ⟨by rw [labelOf, labelOf, hlabel], ?_⟩
  rcases h with rfl | ⟨u, v, k, s, ha, hw⟩
  · exact .refl _
  · cases hlc : label? (textOf c) with
    | none =>
      rw [valueOf, valueOf, hlabel, hlc]
      exact .inr ⟨_, v, k, s, ha, hw⟩
    | some r =>
      obtain ⟨name, n⟩ := r
      obtain ⟨w, d, hd, hn, hword⟩ := exists_label hl hlc
      obtain ⟨y, o, z, rfl, ho, -, -⟩ := ha.texts hw
      have hinner : ∀ d ∈ w, Inner d := fun d hd => (hword d hd).2.1
      have hsplit : chars w ++ d = y ++ .char o :: (z ++ e.old ++ v) := by
        rw [← hd, ha.source]
        simp
      -- the label ends before the opening bracket
      obtain ⟨y', rfl, -⟩ := append_eq_append_cons_of_not_mem hsplit
        (not_mem_chars hinner (not_inner_of_closerOf? ho))
      have hw' : walk [] (y' ++ .char o :: z) = some (k :: s) := by
        rw [List.append_assoc, walk_append, balanced_chars hinner, Option.bind_some] at hw
        exact hw
      have hval : ∀ m x, x = chars w ++ y' ++ .char o :: z ++ m ++ v → label? (textOf x) = some (name, n) →
          valueOf x = (y' ++ .char o :: z).dropWhile Piece.isTrivia ++ m ++ v := by
        intro m x hx hlx
        have hx' : x = chars w ++ (y' ++ .char o :: z ++ (m ++ v)) := by rw [hx]; simp
        rw [hx'] at hlx ⊢
        rw [valueOf_of_label hlx hn, (dropWhile_append_walk hw' _).1, List.append_assoc]
      rw [hval e.old c ha.source hlc, hval e.new c' ha.target (hlabel.trans hlc)]
      refine .inr ⟨_, _, k, s, ⟨rfl, rfl, ?_, ha.right⟩, dropWhile_walk hw'⟩
      exact (List.dropWhile_suffix _).trans (List.IsSuffix.trans ⟨chars w, by simp⟩ ha.left)

lemma Deep.on_string (h : e.Deep v v') : stringOf v' = stringOf v := by
  rcases h with rfl | ⟨u, y, k, s, ha, hw⟩
  · rfl
  · obtain ⟨a, o, z, rfl, -, -, -⟩ := exists_opener hw
    have hn : ∀ m, stringOf (a ++ .char o :: z ++ m ++ y) = none := by
      intro m
      cases a with
      | nil => rfl
      | cons p a =>
        cases p with
        | char => rfl
        | literal => cases a <;> rfl
    rw [ha.source, ha.target, hn, hn]

/-- The brackets right around the place of the exchange. -/
structure Host (e : Splice) (o k : Char) (l r : List Piece) : Prop where
  opener : closerOf? o = some k
  before : ∃ x, e.before = x ++ .char o :: l
  after : ∃ z, e.after = r ++ .char k :: z
  left : Balanced l
  right : Balanced r

variable {o k o' k' : Char} {l r : List Piece}

lemma Within.cases (he : e.Even) (hh : e.Host o k l r) (ho : closerOf? o' = some k')
    (hb : Balanced b) (h : e.Within o' k' b b') :
    e.Deep b b' ∨ (o' = o ∧ b = l ++ e.old ++ r ∧ b' = l ++ e.new ++ r) := by
  rcases h with rfl | ⟨u, v, s, ha, hw, hu, hv⟩
  · exact .inl (.refl _)
  · cases s with
    | cons k₁ s => exact .inl (.inr ⟨u, v, k₁, s, ha, hw⟩)
    | nil =>
      obtain ⟨x, hx⟩ := hh.before
      obtain ⟨z, hz⟩ := hh.after
      obtain ⟨y, hy⟩ := hu
      obtain ⟨t, ht⟩ := hv
      obtain ⟨-, rfl, rfl⟩ := opener_unique ho hh.opener hw hh.left (hy.trans hx)
      obtain rfl : k' = k := Option.some.inj (ho.symm.trans hh.opener)
      have hbv : Balanced v := by
        rw [ha.source] at hb
        exact (Balanced.append hw he.old).right hb
      obtain ⟨rfl, -⟩ := group_unique ho hbv hh.right
        (show v ++ .char k' :: t = r ++ .char k' :: z by rw [← hz, ← ht]; simp)
      exact .inr ⟨rfl, ha.source, ha.target⟩

/-- The group that opens before the exchange, inside of balanced pieces, has its interior exchanged or
left alone. -/
lemma exists_interior (he : e.Even) (ho : closerOf? o = some k) {p u y : List Piece} (hp : Balanced p)
    (hb : Balanced (p ++ .char o :: u ++ e.old ++ y)) (hu : p ++ .char o :: u <:+ e.before)
    (hy : y <+: e.after) : ∃ d d', interior? [k] (u ++ e.old ++ y) = some d ∧
      interior? [k] (u ++ e.new ++ y) = some d' ∧ Balanced d ∧ e.Within o k d d' := by
  have hb' : walk [k] (u ++ e.old ++ y) = some [] := by
    simp only [List.append_assoc, List.cons_append] at hb ⊢
    have := hp.right hb
    rwa [Balanced, walk_opener ho] at this
  rw [List.append_assoc] at hb'
  obtain ⟨s, hs⟩ := exists_walk_left hb'
  rcases @walk_pop [] _ _ _ _ hs with ⟨d, rest, rfl, hd, -⟩ | ⟨above, rfl, hw⟩
  · have hi : ∀ m, interior? [k] (d ++ .char k :: rest ++ m ++ y) = some d := fun m =>
      (interior?_iff ho).mpr ⟨rest ++ m ++ y, by simp, hd⟩
    exact ⟨d, d, hi _, hi _, hd, .inl rfl⟩
  · rw [walk_append, hs, Option.bind_some, walk_append, he.old.walk, Option.bind_some] at hb'
    rcases walk_pop hb' with ⟨d, rest, rfl, hd, -⟩ | ⟨above', hn, -⟩
    · have hi : ∀ m, Balanced m → interior? [k] (u ++ m ++ (d ++ .char k :: rest)) =
          some (u ++ m ++ d) := fun m hm => (interior?_iff ho).mpr ⟨rest, by simp, by
        rw [Balanced, walk_append, walk_append, hw, Option.bind_some, hm.walk, Option.bind_some, hd]⟩
      refine ⟨u ++ e.old ++ d, u ++ e.new ++ d, hi _ he.old, hi _ he.new, ?_, .inr ⟨u, d, above,
        ⟨rfl, rfl, ?_, ?_⟩, hw, ?_, ?_⟩⟩
      · rw [Balanced, walk_append, walk_append, hw, Option.bind_some, he.old.walk, Option.bind_some, hd]
      · exact List.IsSuffix.trans ⟨p ++ [.char o], by simp⟩ hu
      · exact List.IsPrefix.trans ⟨.char k :: rest, rfl⟩ hy
      · exact List.IsSuffix.trans ⟨p, rfl⟩ hu
      · exact List.IsPrefix.trans ⟨rest, by simp⟩ hy
    · simp at hn

lemma Deep.on_array (he : e.Even) (hb : Balanced v) (h : e.Deep v v') :
    (arrayBody? v = none ∧ arrayBody? v' = none) ∨ ∃ d d', arrayBody? v = some d ∧
      arrayBody? v' = some d' ∧ Balanced d ∧ e.Within '[' ']' d d' := by
  rcases h with rfl | ⟨u, y, k, s, ha, hw⟩
  · cases hv : arrayBody? v' with
    | none => exact .inl ⟨rfl, rfl⟩
    | some d =>
      refine .inr ⟨d, d, rfl, rfl, ?_, .inl rfl⟩
      unfold arrayBody? at hv
      split at hv
      · obtain ⟨z, -, hd⟩ := (interior?_iff (o := '[') rfl).mp hv
        exact hd
      · simp at hv
  · cases u with
    | nil => simp at hw
    | cons p u =>
      have hx := ha.source
      have hx' := ha.target
      by_cases hp : p = .char '['
      · subst hp
        rw [hx] at hb
        obtain ⟨d, d', hd, hd', hbal, hin⟩ := exists_interior he (o := '[') rfl .nil hb ha.left ha.right
        exact .inr ⟨d, d', by rw [hx]; exact hd, by rw [hx']; exact hd', hbal, hin⟩
      · have hn : ∀ t, arrayBody? (p :: t) = none := by
          intro t
          unfold arrayBody?
          split
          · rename_i ht
            exact absurd (List.cons.inj ht).1 hp
          · rfl
        exact .inl ⟨by rw [hx]; exact hn _, by rw [hx']; exact hn _⟩

lemma Deep.on_declarationBody (he : e.Even) (hl : Lexed v) (hb : Balanced v) (h : e.Deep v v') :
    (declarationBody? v = none ∧ declarationBody? v' = none) ∨ ∃ d d',
      declarationBody? v = some d ∧ declarationBody? v' = some d' ∧ Balanced d ∧ d <:+: v ∧
        e.Within '(' ')' d d' := by
  have hlen := h.declarationLength?_eq
  cases hd : declarationLength? (textOf v) with
  | none => exact .inl ⟨by rw [declarationBody?, hd]; rfl, by rw [declarationBody?, hlen, hd]; rfl⟩
  | some n =>
    have hl' : Lexed (v ++ []) := by rwa [List.append_nil]
    obtain ⟨w, d, q, hv, rfl, hbal, hword, hbody⟩ := exists_declarationBody hl' hb hd
    have hinner : ∀ c ∈ w, Inner c := fun c hc => (hword c hc).2.1
    have hinfix : d <:+: v := ⟨chars w ++ [.char '('], .char ')' :: q, by rw [hv]; simp⟩
    rcases h with rfl | ⟨u, y, k, s, ha, hw⟩
    · exact .inr ⟨d, d, hbody, hbody, hbal, hinfix, .inl rfl⟩
    · -- the word ends before the first bracket, which may be its own parenthesis
      obtain ⟨t, rfl⟩ : ∃ t, u = chars w ++ .char '(' :: t := by
        obtain ⟨a, o, z, rfl, ho, -, -⟩ := ha.texts hw
        have hsplit : a ++ .char o :: (z ++ e.old ++ y) = chars w ++ .char '(' :: (d ++ .char ')' :: q) := by
          rw [← hv, ha.source]
          simp
        rcases append_cons_eq_append_cons hsplit with ⟨rfl, hc, -⟩ | ⟨m, hm, -⟩ | ⟨m, rfl, -⟩
        · obtain rfl := Piece.char.inj hc
          exact ⟨z, rfl⟩
        · exact absurd (by rw [hm]; simp) (not_mem_chars hinner (not_inner_of_closerOf? ho))
        · exact ⟨m ++ .char o :: z, by simp⟩
      have hsource := ha.source
      rw [hsource] at hb
      obtain ⟨d₁, d', hd₁, hd', hbal', hin⟩ :=
        exists_interior he (o := '(') rfl (balanced_chars hinner) hb ha.left ha.right
      have hdrop : ∀ m, (chars w ++ .char '(' :: t ++ m ++ y).drop (w.length + 1) = t ++ m ++ y := by
        intro m
        rw [List.append_assoc, List.append_assoc, List.cons_append, drop_word, List.append_assoc]
      have hb₁ : declarationBody? v = some d₁ := by
        rw [declarationBody?, hd, Option.bind_some, hsource, hdrop, hd₁]
      have hb₂ : declarationBody? v' = some d' := by
        rw [declarationBody?, hlen, hd, Option.bind_some, ha.target, hdrop, hd']
      obtain rfl : d₁ = d := Option.some.inj (hb₁.symm.trans hbody)
      exact .inr ⟨d₁, d', hb₁, hb₂, hbal', hinfix, hin⟩

lemma Deep.on_declaration (he : e.Even) (hl : Lexed v) (hb : Balanced v) (h : e.Deep v v') :
    isDeclaration v' = isDeclaration v ∧
      ((declarationBody? v = none ∧ declarationBody? v' = none) ∨ ∃ d d',
        declarationBody? v = some d ∧ declarationBody? v' = some d' ∧ Balanced d ∧ d <:+: v ∧
          e.Within '(' ')' d d') :=
  ⟨by rw [isDeclaration, isDeclaration, h.declarationLength?_eq], h.on_declarationBody he hl hb⟩

end Splice

end PackageInstaller.Manifest
