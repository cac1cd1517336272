import PackageInstaller.Proofs.Groups

/-! One more element in a group: between two others, after the last one, or where there is none. The group
then shows the element in its place, and the text around is read as before. -/

namespace PackageInstaller.Manifest

/-- Pieces that are one element wherever they are put. -/
structure Elemental (x : List Piece) : Prop where
  segment : Segment x
  solid : Solid x
  ne_nil : x ≠ []
  lexed {s : Text} : s.head? ≠ some '"' → s.head? ≠ some '#' → LexedBefore s x

/-- The blanks `w` begin with a line break if `g` ends in a line comment. -/
def EndsLine (g : List Piece) (w : Text) : Prop :=
  ∀ m, g.getLast? = some (.literal m) → ['/', '/'].isPrefixOf m = true → w.head? = some '\n'

/-- A place for an element after `n` others of the group `d`. Between `l` and `r` the element takes the
place of `old`, with `pre` before it and `post` after it. -/
inductive Slot (d : List Piece) : Nat → (l old pre post r : List Piece) → Prop
  | ahead {u v : List (List Piece)} {g y : List Piece} {w w' : Text} :
    segments d = u ++ (g ++ y) :: v → (u = [] → core y ≠ []) → Trivial g → EndsLine g w →
    (∀ c ∈ w, Text.isBlank c = true) → (∀ c ∈ w', Text.isBlank c = true) →
    Slot d u.length (leading u ++ g) [] (chars w) (chars (',' :: w')) (y ++ following v)
  | last {u : List (List Piece)} {s g y : List Piece} {w : Text} :
    segments d = u ++ [s ++ g ++ y] → trimmed s = s → core s ≠ [] → Trivial g → Trivial y →
    EndsLine g w → (∀ c ∈ w, Text.isBlank c = true) →
    Slot d (u.length + 1) (leading u ++ s) g (comma :: (g ++ chars w)) [] y
  | only {y : List Piece} {v w w' : Text} : d = chars v ++ y → Trivial y →
    (∀ c ∈ v, Text.isBlank c = true) → (∀ c ∈ w, Text.isBlank c = true) →
    (∀ c ∈ w', Text.isBlank c = true) → Slot d 0 [] (chars v) (chars w) (chars w') y

/-- What stands in a group before its first element. -/
def preface (d : List Piece) : List Piece := lead ((segments d).headD [])

/-- `e` is the group `d`, of which `es` are the elements, with `x` as one more: the segments `u` stand before
that of `x`, and the segments `v` after it. -/
structure Fills (d : List Piece) (es : List (List Piece)) (x e : List Piece) (u : List (List Piece))
    (g y : List Piece) (v cs : List (List Piece)) : Prop where
  cut : segments e = u ++ (g ++ x ++ y) :: v
  ahead : Trivial g
  behind : Trivial y
  elements : es = u.map core ++ cs
  before : ∀ s ∈ u, core s ≠ []
  after : entries v = some cs
  count : u.length + v.length + 1 = (segments d).length + if es = [] then 0 else 1
  kept : ∀ s ∈ u.head?, lead s = preface d
  blank : es = [] → ∀ m, .literal m ∉ g

lemma trivial_nil : Trivial [] := by simp [Trivial]

lemma trivial_chars {w : Text} (h : ∀ c ∈ w, Text.isBlank c = true) : Trivial (chars w) := by
  intro p hp
  obtain ⟨c, hc, rfl⟩ := List.mem_map.mp hp
  exact h c hc

lemma Trivial.append {ps qs : List Piece} (hp : Trivial ps) (hq : Trivial qs) : Trivial (ps ++ qs) :=
  fun p h => (List.mem_append.mp h).elim (hp p) (hq p)

lemma Trivial.left {ps qs : List Piece} (h : Trivial (ps ++ qs)) : Trivial ps :=
  fun p hp => h p (List.mem_append_left _ hp)

lemma Trivial.right {ps qs : List Piece} (h : Trivial (ps ++ qs)) : Trivial qs :=
  fun p hp => h p (List.mem_append_right _ hp)

lemma Trivial.segment {ps : List Piece} (h : Trivial ps) : Segment ps := by
  induction ps with
  | nil => exact .nil
  | cons p ps ih =>
    have hps := ih fun q hq => h q (List.mem_cons_of_mem _ hq)
    cases p with
    | literal l => exact (Segment.literal l).append hps
    | char c =>
      obtain ⟨-, h₁, h₂⟩ := ordinary_of_isBlank (h _ List.mem_cons_self)
      exact (Segment.char h₁ h₂).append hps

lemma Segment.right {s t : List Piece} (hs : Balanced s) (h : Segment (s ++ t)) : Segment t := by
  refine ⟨hs.right h.balanced, ?_⟩
  rintro a c rfl hw
  refine h.flat (s ++ a) c (by simp) ?_
  rw [walk_append, hs.walk]
  exact hw

lemma Segment.left {s t : List Piece} (ht : Balanced t) (h : Segment (s ++ t)) : Segment s := by
  refine ⟨ht.left h.balanced, ?_⟩
  rintro a c rfl
  exact h.flat a (c ++ t) (by simp)

lemma Segment.core {s : List Piece} (h : Segment s) : Segment (core s) := by
  obtain ⟨r, hr, htrail⟩ := exists_trail s
  rw [hr, List.append_assoc] at h
  exact (Segment.right (trivial_balanced (lead_trivial s)) h).left (trivial_balanced htrail)

lemma plain_of_blank {w : Text} (hw : ∀ c ∈ w, Text.isBlank c = true) : ∀ c ∈ w, Plain c :=
  fun c hc => (ordinary_of_isBlank (hw c hc)).1

lemma joins_plain {c : Char} (h : Plain c) (s : Text) : (Piece.char c).Joins s :=
  ⟨fun hc => absurd hc h.1, fun hc => absurd hc h.2.2⟩

lemma joins_comma {p : Piece} (h : p.isTrivia = false) (s : Text) : p.Joins (',' :: s) := by
  cases p with
  | char c => simp [Piece.Joins]
  | literal l =>
    refine ⟨by simp, fun hl => ?_⟩
    cases l with
    | nil => simp at hl
    | cons d l => simp [Piece.isTrivia] at h hl; exact absurd hl.1.symm h

lemma EndsLine.joins {g : List Piece} {w : Text} {q : Piece} (h : EndsLine g w) (hg : Trivial g)
    (hq : g.getLast? = some q) (s : Text) : q.Joins (w ++ s) := by
  have ht := hg q (List.mem_of_getLast? hq)
  cases q with
  | char c => exact joins_plain (ordinary_of_isBlank ht).1 _
  | literal m =>
    refine ⟨.inl (by simpa [Piece.isTrivia] using ht), fun hm => .inr ?_⟩
    rw [List.head?_append, h m hq hm]
    rfl

lemma joins_before {p g : List Piece} {c : Char} {w : Text} {q : Piece} (hc : Plain c) (hg : Trivial g)
    (h : EndsLine g w) (hw : ∀ c ∈ w, Text.isBlank c = true)
    (hq : (p ++ .char c :: (g ++ chars w)).getLast? = some q) (s : Text) : q.Joins s := by
  rw [List.getLast?_append_of_ne_nil _ (List.cons_ne_nil _ _)] at hq
  rcases List.eq_nil_or_concat' w with rfl | ⟨w, c', rfl⟩
  · rw [chars, List.map_nil, List.append_nil] at hq
    cases g with
    | nil =>
      obtain rfl : .char c = q := by simpa using hq
      exact joins_plain hc s
    | cons p g =>
      rw [List.getLast?_cons_cons] at hq
      exact h.joins hg hq s
  · have hlast : (.char c :: (g ++ chars (w ++ [c']))).getLast? = some (.char c') := by
      rw [chars_append, ← List.append_assoc, ← List.cons_append]
      exact List.getLast?_concat
    obtain rfl := Option.some.inj (hlast.symm.trans hq)
    exact joins_plain (plain_of_blank hw c' (by simp)) _

lemma head_trivial {y : List Piece} {k : Char} (z : Text) (hy : Trivial y) (hk : Plain k) :
    (textOf y ++ k :: z).head? ≠ some '"' ∧ (textOf y ++ k :: z).head? ≠ some '#' := by
  cases y with
  | nil => simpa using hk.2
  | cons p y =>
    have hp := hy p List.mem_cons_self
    cases p with
    | char c =>
      have hc := ordinary_of_isBlank hp
      simpa [Piece.text] using hc.1.2
    | literal m =>
      simp only [Piece.isTrivia, decide_eq_true_eq] at hp
      cases m with
      | nil => simp at hp
      | cons c m =>
        obtain rfl : c = '/' := by simpa using hp
        simp [Piece.text]

lemma entries_congr {u v : List (List Piece)} (h : u.map core = v.map core) : entries u = entries v := by
  induction u generalizing v with
  | nil =>
    obtain rfl : v = [] := by simpa using h.symm
    rfl
  | cons s u ih =>
    cases v with
    | nil => simp at h
    | cons t v =>
      obtain ⟨hst, huv⟩ := List.cons.inj h
      cases u with
      | nil =>
        obtain rfl : v = [] := by simpa using huv.symm
        rw [entries, entries, hst]
      | cons r u =>
        have hv : v ≠ [] := by
          rintro rfl
          simp at huv
        rw [entries_cons (List.cons_ne_nil r u), entries_cons hv, hst, ih huv]

lemma exists_before_segment (a : List Piece) (o : Char) (u : List (List Piece)) :
    ∃ p c, a ++ .char o :: leading u = p ++ [.char c] ∧ (c = ',' ∨ u = [] ∧ c = o) := by
  rcases List.eq_nil_or_concat' u with rfl | ⟨u, s, rfl⟩
  · exact ⟨a, o, rfl, .inr ⟨rfl, rfl⟩⟩
  · exact ⟨a ++ .char o :: (leading u ++ s), ',', by simp [leading, comma], .inl rfl⟩

lemma joins_leading {o : Char} {u : List (List Piece)} {g : List Piece} {w : Text} {q : Piece} (ho : Plain o)
    (hg : Trivial g) (h : EndsLine g w) (hw : ∀ c ∈ w, Text.isBlank c = true)
    (hq : (.char o :: (leading u ++ g ++ chars w)).getLast? = some q) (s : Text) : q.Joins s := by
  obtain ⟨p, c, hp, hc⟩ := exists_before_segment [] o u
  have hplain : Plain c := by
    rcases hc with rfl | ⟨-, rfl⟩
    · decide
    · exact ho
  have hl : Piece.char o :: (leading u ++ g ++ chars w) = p ++ .char c :: (g ++ chars w) := by
    rw [List.nil_append] at hp
    rw [List.append_assoc, ← List.cons_append, hp]
    simp
  rw [hl] at hq
  exact joins_before hplain hg h hw hq s

lemma contents_trivial {d : List Piece} (h : Trivial d) : contents d = some [] := by
  rw [contents, segments_of_segment h.segment, entries, if_pos (core_eq_nil.mpr h)]

lemma trivial_of_contents {d : List Piece} (h : contents d = some []) : Trivial d := by
  obtain ⟨s, rest, hseg⟩ := List.exists_cons_of_ne_nil (segments_ne_nil d)
  rw [contents, hseg] at h
  by_cases hrest : rest = []
  · subst hrest
    rw [entries] at h
    split_ifs at h with hs
    · rw [← joined_segments d, hseg]
      exact core_eq_nil.mp hs
    · simp at h
  · rw [entries_cons hrest] at h
    split_ifs at h
    simp at h

lemma endsInComma_eq {b b' : List Piece} {cs : List (List Piece)} {args args' : ArgumentList} {pos pos' : Nat}
    (h : argumentsFrom pos (segments b) = .ok args.items) (hlen : args.items.length = cs.length)
    (hcs : contents b = some cs) (h' : argumentsFrom pos' (segments b') = .ok args'.items)
    (hlen' : args'.items.length = cs.length + 1)
    (hcount : (segments b').length = (segments b).length + if cs = [] then 0 else 1) :
    args'.endsInComma = args.endsInComma := by
  have hi' : args'.items ≠ [] := List.ne_nil_of_length_eq_add_one hlen'
  rw [Bool.eq_iff_iff, endsInComma_iff h', endsInComma_iff h, hcount, hlen', and_iff_right hi']
  by_cases he : cs = []
  · subst he
    have hi : args.items = [] := List.length_eq_zero_iff.mp hlen
    simp [hi, segments_of_segment (trivial_of_contents hcs).segment]
  · have hi : args.items ≠ [] := fun hi => he (List.length_eq_zero_iff.mp (by rw [← hlen, hi]; rfl))
    rw [if_neg he, and_iff_right hi, hlen]
    omega

lemma Lists.inserted {ps ps' a a' d d' x : List Piece} {list list' : ArgumentList} {cs₁ cs₂ : List (List Piece)}
    (h : Lists ps a d list (cs₁ ++ cs₂)) (h' : Lists ps' a' d' list' (cs₁ ++ x :: cs₂))
    (hcount : (segments d').length = (segments d).length + if cs₁ ++ cs₂ = [] then 0 else 1) :
    list'.shown (textOf ps') = (list.shown (textOf ps)).take cs₁.length ++
        entry x :: (list.shown (textOf ps)).drop cs₁.length ∧ list'.endsInComma = list.endsInComma := by
  have hlen : (cs₁.map entry).length = cs₁.length := List.length_map _
  refine ⟨?_, endsInComma_eq h.items h.reads.length_eq h.elements h'.items ?_ hcount⟩
  · rw [h.shown, h'.shown, List.map_append, List.map_append, List.map_cons, ← hlen, List.take_left, List.drop_left]
  · rw [h'.reads.length_eq, List.length_append, List.length_append, List.length_cons]
    rfl

lemma Elemental.core_eq {g x y : List Piece} (hx : Elemental x) (hg : Trivial g) (hy : Trivial y) :
    lead (g ++ x ++ y) = g ∧ core (g ++ x ++ y) = x :=
  lead_core_eq hg hx.solid hx.ne_nil hy

namespace Fills

variable {d x e g y : List Piece} {es u v cs : List (List Piece)} (h : Fills d es x e u g y v cs)

include h

theorem contents_eq (hx : Elemental x) :
    contents e = some (es.take u.length ++ x :: es.drop u.length) := by
  have hlen : u.length = (u.map core).length := (List.length_map _).symm
  have hcore := (hx.core_eq h.ahead h.behind).2
  rw [contents, h.cut, entries_append h.before,
    entries_cons_of_core (by rw [hcore]; exact hx.ne_nil), hcore, h.after, h.elements, hlen]
  simp only [Option.map_some, List.take_left, List.drop_left]

lemma segments_length : (segments e).length = (segments d).length + if es = [] then 0 else 1 := by
  rw [← h.count, h.cut, List.length_append, List.length_cons]
  omega

lemma preface_eq (hx : Elemental x) : (es.take u.length ≠ [] → preface e = preface d) ∧
    (es = [] → ∀ m, .literal m ∉ preface e) := by
  rw [preface, h.cut]
  cases u with
  | nil =>
    refine ⟨fun hn => absurd List.take_zero hn, fun hes m hm => h.blank hes m ?_⟩
    rwa [← (hx.core_eq h.ahead h.behind).1]
  | cons s u =>
    refine ⟨fun _ => h.kept s rfl, fun hes => ?_⟩
    have := h.elements
    rw [hes] at this
    simp at this

end Fills

section

variable {d x g y : List Piece} {es u v : List (List Piece)} {w w' : Text}

lemma fills_ahead (hb : Balanced d) (hx : Elemental x) (hes : contents d = some es)
    (hseg : segments d = u ++ (g ++ y) :: v) (hne : u = [] → core y ≠ []) (hg : Trivial g)
    (hw : ∀ c ∈ w, Text.isBlank c = true) (hw' : ∀ c ∈ w', Text.isBlank c = true) : ∃ cs,
      Fills d es x (leading u ++ g ++ (chars w ++ x ++ chars (',' :: w')) ++ (y ++ following v)) u
        (g ++ chars w) [] ((chars w' ++ y) :: v) cs := by
  have hall : ∀ s ∈ u ++ (g ++ y) :: v, Segment s := hseg ▸ fun s hs => segment_of_mem hb hs
  rw [contents, hseg] at hes
  have hcu := core_ne_nil_of_entries hes (List.cons_ne_nil _ _)
  rw [entries_append hcu] at hes
  obtain ⟨cs, hcs, rfl⟩ := Option.map_eq_some_iff.mp hes
  have hsome : u.map core ++ cs ≠ [] := by
    cases u with
    | cons s u => simp
    | nil =>
      rw [entries_cons_of_core (by rw [core_trivial_append hg]; exact hne rfl)] at hcs
      obtain ⟨later, -, rfl⟩ := Option.map_eq_some_iff.mp hcs
      simp
  have hcores : ((g ++ y) :: v).map core = ((chars w' ++ y) :: v).map core := by
    rw [List.map_cons, List.map_cons, core_trivial_append hg, core_trivial_append (trivial_chars hw')]
  rw [entries_congr hcores] at hcs
  have hjoin : joined (u ++ (g ++ chars w ++ x) :: (chars w' ++ y) :: v) =
      leading u ++ g ++ (chars w ++ x ++ chars (',' :: w')) ++ (y ++ following v) := by
    rw [joined_mid]
    simp [following, comma, chars]
  refine ⟨cs, ?_, hg.append (trivial_chars hw), trivial_nil, rfl, hcu, hcs, ?_, ?_, fun he => absurd he hsome⟩
  · rw [List.append_nil, ← hjoin, segments_joined (by simp)]
    intro s hs
    rcases List.mem_append.mp hs with hs | hs
    · exact hall s (List.mem_append_left _ hs)
    · rcases List.mem_cons.mp hs with rfl | hs
      · exact (hg.append (trivial_chars hw)).segment.append hx.segment
      · rcases List.mem_cons.mp hs with rfl | hs
        · exact (trivial_chars hw').segment.append (Segment.right (trivial_balanced hg) (hall _ (by simp)))
        · exact hall s (by simp [hs])
  · rw [if_neg hsome, hseg, List.length_append, List.length_cons, List.length_cons]
  · intro s hs
    obtain ⟨u, rfl⟩ := List.head?_eq_some_iff.mp hs
    rw [preface, hseg]
    rfl

lemma fills_last {s : List Piece} (hb : Balanced d) (hx : Elemental x) (hes : contents d = some es)
    (hseg : segments d = u ++ [s ++ g ++ y]) (hs : core s ≠ []) (hg : Trivial g) (hy : Trivial y)
    (hw : ∀ c ∈ w, Text.isBlank c = true) :
    Fills d es x (leading u ++ s ++ (comma :: (g ++ chars w) ++ x ++ []) ++ y) (u ++ [s]) (g ++ chars w) y
      [] [] := by
  have hall : ∀ t ∈ u ++ [s ++ g ++ y], Segment t := hseg ▸ fun t ht => segment_of_mem hb ht
  rw [contents, hseg] at hes
  have hcu := core_ne_nil_of_entries hes (List.cons_ne_nil _ _)
  have htrim : trimmed (s ++ g ++ y) = trimmed s := by
    rw [List.append_assoc, trimmed_append_trivial s (hg.append hy)]
  rw [entries_append hcu, entries, core, htrim, ← core, if_neg hs] at hes
  obtain rfl : u.map core ++ [core s] = es := Option.some.inj hes
  have hss : Segment s := by
    have := hall (s ++ g ++ y) (by simp)
    rw [List.append_assoc] at this
    exact this.left (trivial_balanced (hg.append hy))
  have hjoin : joined (u ++ [s] ++ [g ++ chars w ++ x ++ y]) =
      leading u ++ s ++ (comma :: (g ++ chars w) ++ x ++ []) ++ y := by
    rw [joined_mid]
    simp [following, leading]
  refine ⟨?_, hg.append (trivial_chars hw), hy, by simp, ?_, rfl, ?_, ?_, by simp⟩
  · rw [← hjoin, segments_joined (by simp)]
    intro t ht
    simp only [List.mem_append, List.mem_singleton] at ht
    rcases ht with (ht | rfl) | rfl
    · exact hall t (by simp [ht])
    · exact hss
    · exact ((hg.append (trivial_chars hw)).segment.append hx.segment).append hy.segment
  · intro t ht
    rcases List.mem_append.mp ht with ht | ht
    · exact hcu t ht
    · rwa [List.mem_singleton.mp ht]
  · rw [if_neg (by simp), hseg]
    simp
  · intro t ht
    rw [preface, hseg]
    cases u with
    | cons s u =>
      obtain rfl : s = t := by simpa using ht
      rfl
    | nil =>
      obtain rfl : s = t := by simpa using ht
      change lead s = lead (s ++ g ++ y)
      rw [lead, lead, htrim]

lemma fills_only {b : Text} (hx : Elemental x) (hes : contents d = some es) (hd : d = chars b ++ y)
    (hy : Trivial y) (hb : ∀ c ∈ b, Text.isBlank c = true) (hw : ∀ c ∈ w, Text.isBlank c = true)
    (hw' : ∀ c ∈ w', Text.isBlank c = true) :
    Fills d es x ([] ++ (chars w ++ x ++ chars w') ++ y) [] (chars w) (chars w' ++ y) [] [] := by
  subst hd
  have ht := (trivial_chars hb).append hy
  obtain rfl : [] = es := Option.some.inj ((contents_trivial ht).symm.trans hes)
  refine ⟨?_, trivial_chars hw, (trivial_chars hw').append hy, rfl, by simp, rfl, ?_, by simp, fun _ m hm => ?_⟩
  · have hs := (((trivial_chars hw).segment.append hx.segment).append (trivial_chars hw').segment).append
      hy.segment
    rw [List.nil_append, segments_of_segment hs]
    simp
  · rw [segments_of_segment ht.segment]
    rfl
  · obtain ⟨c, -, hc⟩ := List.mem_map.mp hm
    cases hc

end

namespace Slot

variable {d l old pre post r x : List Piece} {n : Nat} (h : Slot d n l old pre post r)

include h

lemma source : d = l ++ old ++ r := by
  cases h with
  | ahead hseg =>
    rw [← joined_segments d, hseg, joined_mid]
    simp
  | last hseg =>
    rw [← joined_segments d, hseg, joined_mid]
    simp [following]
  | only hd => simpa using hd

lemma old_trivial : Trivial old := by
  cases h with
  | ahead => exact trivial_nil
  | last _ _ _ hg => exact hg
  | only _ _ hv => exact trivial_chars hv

lemma around_balanced : Balanced pre ∧ Balanced post := by
  have hc : Balanced [comma] := rfl
  cases h with
  | ahead _ _ _ _ hw hw' =>
    exact ⟨trivial_balanced (trivial_chars hw), hc.append (trivial_balanced (trivial_chars hw'))⟩
  | last _ _ _ hg _ _ hw =>
    exact ⟨hc.append (trivial_balanced (hg.append (trivial_chars hw))), .nil⟩
  | only _ _ _ hw hw' =>
    exact ⟨trivial_balanced (trivial_chars hw), trivial_balanced (trivial_chars hw')⟩

lemma sides_balanced (hb : Balanced d) : Balanced l ∧ Balanced r := by
  have hsource := h.source
  have hl : Balanced l := by
    cases h with
    | ahead hseg _ hg =>
      refine (leading_balanced fun s hs => ?_).append (trivial_balanced hg)
      exact segment_of_mem hb (by rw [hseg]; exact List.mem_append_left _ hs)
    | @last u s _ _ _ hseg _ _ hg hy =>
      refine (leading_balanced fun s hs => ?_).append ?_
      · exact segment_of_mem hb (by rw [hseg]; exact List.mem_append_left _ hs)
      · have hs : Segment (s ++ old ++ r) := segment_of_mem hb (by rw [hseg]; simp)
        rw [List.append_assoc] at hs
        exact (hs.left (trivial_balanced (hg.append hy))).balanced
    | only => exact .nil
  rw [hsource, List.append_assoc] at hb
  exact ⟨hl, (trivial_balanced h.old_trivial).right (hl.right hb)⟩

lemma target_balanced (hb : Balanced d) (hx : Balanced x) : Balanced (l ++ (pre ++ x ++ post) ++ r) :=
  ((h.sides_balanced hb).1.append ((h.around_balanced.1.append hx).append h.around_balanced.2)).append
    (h.sides_balanced hb).2

/-- The element has a segment of its own, and comes with a comma unless it is the only one. -/
theorem exists_fills (hb : Balanced d) (hx : Elemental x) {es : List (List Piece)}
    (hes : contents d = some es) : ∃ u g y v cs, Fills d es x (l ++ (pre ++ x ++ post) ++ r) u g y v cs ∧
      l ++ pre = leading u ++ g ∧ u.length = n := by
  cases h with
  | ahead hseg hne hg _ hw hw' =>
    obtain ⟨cs, hfill⟩ := fills_ahead hb hx hes hseg hne hg hw hw'
    exact ⟨_, _, _, _, cs, hfill, by simp, rfl⟩
  | last hseg _ hs hg hy _ hw => exact ⟨_, _, _, _, _, fills_last hb hx hes hseg hs hg hy hw, by simp [leading], by simp⟩
  | only hd hy hv hw hw' => exact ⟨[], _, _, _, _, fills_only hx hes hd hy hv hw hw', rfl, rfl⟩

lemma joins_left {q : Piece} (hq : l.getLast? = some q) (s : Text) : q.Joins (textOf pre ++ s) := by
  cases h with
  | @ahead u v g y w w' _ _ hg he =>
    rw [textOf_chars]
    cases g with
    | nil =>
      rcases List.eq_nil_or_concat' u with rfl | ⟨u, s', rfl⟩
      · simp [leading] at hq
      · have hlast : leading (u ++ [s']) ++ [] = leading u ++ s' ++ [comma] := by simp [leading]
        rw [hlast, List.getLast?_concat] at hq
        obtain rfl := Option.some.inj hq
        exact joins_plain (by decide) _
    | cons p g =>
      rw [List.getLast?_append_of_ne_nil _ (List.cons_ne_nil _ _)] at hq
      exact he.joins hg hq s
  | @last u s' _ _ w _ hs hcore =>
    have hne : s' ≠ [] := by
      rintro rfl
      exact hcore (core_eq_nil.mpr trivial_nil)
    rw [List.getLast?_append_of_ne_nil _ hne] at hq
    refine joins_comma ?_ _
    rw [← hs, trimmed] at hq hne
    rw [List.getLast?_eq_some_getLast hne, Option.some.injEq] at hq
    have := List.rdropWhile_last_not (p := Piece.isTrivia) (l := s') hne
    rw [← Bool.not_eq_true, ← hq]
    exact this
  | only => simp at hq

lemma joins_element {o : Char} (ho : Plain o) {q : Piece}
    (hq : (.char o :: (l ++ pre)).getLast? = some q) (s : Text) : q.Joins s := by
  cases h with
  | ahead _ _ hg he hw =>
    exact joins_leading ho hg he hw hq s
  | @last u t _ _ w _ _ _ hg _ he hw =>
    rw [← List.cons_append] at hq
    exact joins_before (c := ',') (p := .char o :: (leading u ++ t)) (by decide) hg he hw hq s
  | @only _ v w w' _ _ _ hw =>
    refine joins_before (p := []) (g := []) ho trivial_nil ?_ hw hq s
    simp [EndsLine]

/-- The group is cut into the same pieces with the element among them. -/
theorem lexed {k : Char} {z : Text} (hx : Elemental x) (hk : isCloser k = true)
    (hl : LexedBefore (k :: z) d) : LexedBefore (k :: z) (l ++ (pre ++ x ++ post) ++ r) := by
  have hsource := h.source
  rw [hsource, lexedBefore_append, lexedBefore_append] at hl
  obtain ⟨⟨hleft, hold⟩, hright⟩ := hl
  have hcomma : Plain ',' := by decide
  have hcloser : Plain k := by rcases isCloser_cases hk with rfl | rfl | rfl <;> decide
  simp only [lexedBefore_append, textOf_append, List.append_assoc]
  refine ⟨hleft.rejoin fun q hq => h.joins_left hq _, ?_, ?_, ?_, hright⟩
  · cases h with
    | ahead _ _ _ _ hw => exact lexedBefore_chars (plain_of_blank hw) _
    | only _ _ _ hw => exact lexedBefore_chars (plain_of_blank hw) _
    | last _ _ _ hg _ he hw =>
      refine ⟨literalLength?_of_plain _ hcomma, lexedBefore_append.mpr ⟨?_, lexedBefore_chars (plain_of_blank hw) _⟩⟩
      refine hold.rejoin fun q hq => ?_
      rw [textOf_chars]
      exact he.joins hg hq _
  · have hhead : (textOf post ++ (textOf r ++ k :: z)).head? ≠ some '"' ∧
        (textOf post ++ (textOf r ++ k :: z)).head? ≠ some '#' := by
      cases h with
      | ahead => simp
      | last _ _ _ _ hy => simpa using head_trivial z hy hcloser
      | only _ hy _ _ hw' =>
        have := head_trivial z ((trivial_chars hw').append hy) hcloser
        simpa using this
    exact hx.lexed hhead.1 hhead.2
  · cases h with
    | ahead _ _ _ _ _ hw' =>
      refine lexedBefore_chars (fun c hc => ?_) _
      rcases List.mem_cons.mp hc with rfl | hc
      · exact hcomma
      · exact plain_of_blank hw' c hc
    | last => trivial
    | only _ _ _ _ hw' => exact lexedBefore_chars (plain_of_blank hw') _

lemma comments : ∃ c₁ c₂, commentsOf d = c₁ ++ c₂ ∧
    commentsOf (l ++ (pre ++ x ++ post) ++ r) = c₁ ++ commentsOf x ++ c₂ := by
  have hsource := h.source
  simp only [hsource, commentsOf_append]
  cases h with
  | @ahead u v g y w w' =>
    exact ⟨_, _, rfl, by simp [commentsOf_append, commentsOf_chars, commentsOf]⟩
  | @last u s _ _ w =>
    exact ⟨_, _, rfl, by simp [commentsOf_append, commentsOf_chars, comma, commentsOf]⟩
  | @only _ v w w' => exact ⟨[], commentsOf r, by simp [commentsOf_chars, commentsOf], by simp [commentsOf_chars, commentsOf]⟩

end Slot

end PackageInstaller.Manifest
