import PackageInstaller.Manifest.DependencyList
import PackageInstaller.Manifest.TargetDependency
import PackageInstaller.Proofs.Contents
import PackageInstaller.Proofs.Strings

/-! What the values of arguments are: string literals, and arrays. The array that a label names is found
where it stands, whatever it holds. -/

namespace PackageInstaller.Manifest

/-- `r` is what comes of a reading that finds `found`, or else an element missing before a comma. -/
def Told {α : Type} (found : Option α) (r : Scan α) : Prop :=
  match found with
  | some a => r = .ok a
  | none => ∃ pos, r = .error (.emptyElement pos)

def arrayBody? : List Piece → Option (List Piece)
  | .char '[' :: ps => interior? [']'] ps
  | _ => none

def labelled (label : Text) (cs : List (List Piece)) : Option (List Piece) :=
  cs.find? fun c => labelOf c = some label

def namingIn (cs : List (List Piece)) : Naming :=
  match labelled nameLabel cs with
  | none => .nameless
  | some c =>
    match stringOf (valueOf c) with
    | none => .notLiteral
    | some name => .named name

def dependencyBody? (cs : List (List Piece)) : Option (List Piece) :=
  (labelled dependenciesLabel cs).bind fun c => arrayBody? (valueOf c)

variable {ps : List Piece} {item : Argument} {c : List Piece}

lemma Reads.label (h : Reads ps item c) : item.label = labelOf c := by
  obtain ⟨a, q, z, comma, -, -, rfl⟩ := h.place
  rfl

lemma Reads.span (h : Reads ps item c) : ∃ a z, ps = a ++ c ++ z ∧
    item.span = ⟨(textOf a).length, (textOf a).length + (textOf c).length⟩ := by
  obtain ⟨a, q, z, comma, hps, -, rfl⟩ := h.place
  exact ⟨a, q :: z, hps, rfl⟩

lemma slice_reads (h : Reads ps item c) :
    (textOf ps).slice item.span.start item.span.stop = textOf c := by
  obtain ⟨a, z, hps, hspan⟩ := h.span
  rw [hspan, hps, textOf_append, textOf_append, slice_mid]

lemma map_reads {α : Type} {items : List Argument} {cs : List (List Piece)} {p : Argument → α}
    {q : List Piece → α} (h : List.Forall₂ (Reads ps) items cs)
    (hpq : ∀ {item c}, Reads ps item c → p item = q c) : items.map p = cs.map q := by
  induction h with
  | nil => rfl
  | cons hr _ ih => rw [List.map_cons, List.map_cons, ih, hpq hr]

lemma Reads.value (h : Reads ps item c) (hl : Lexed ps) : Balanced (valueOf c) ∧
    ∃ a q z, ps = a ++ valueOf c ++ q :: z ∧ q ≠ .char '[' ∧
      item.value = ⟨(textOf a).length, (textOf a).length + (textOf (valueOf c)).length⟩ := by
  obtain ⟨a, q, z, comma, hps, hq, rfl⟩ := h.place
  have hcz : Lexed (c ++ q :: z) := by
    rw [hps, List.append_assoc] at hl
    exact hl.right
  obtain ⟨w, hw, hb⟩ := exists_before_value hcz.left
  have hlen := congrArg (fun ps => (textOf ps).length) hw
  simp only [textOf_append, List.length_append] at hlen
  refine ⟨hb.right (hw ▸ h.balanced), a ++ w, q, z, ?_, hq, ?_⟩
  · rw [hps]
    conv_lhs => rw [hw]
    simp
  · simp only [argumentAt, textOf_append, List.length_append, Interval.mk.injEq]
    omega

lemma valueAt?_reads (h : Reads ps item c) (hl : Lexed ps) :
    StringLiteral.valueAt? (textOf ps) item.value = stringOf (valueOf c) := by
  obtain ⟨-, a, q, z, hps, -, hv⟩ := h.value hl
  rw [StringLiteral.valueAt?, hv, hps, textOf_append, textOf_append, slice_mid]
  rw [hps, List.append_assoc] at hl
  exact decode?_textOf hl.right

lemma find?_reads {items : List Argument} {cs : List (List Piece)}
    (h : List.Forall₂ (Reads ps) items cs) (label : Text) :
    Option.Rel (Reads ps) (items.find? (·.label = some label)) (labelled label cs) := by
  induction h with
  | nil => exact .none
  | cons hr _ ih =>
    rw [labelled, List.find?_cons, List.find?_cons, hr.label]
    split
    · exact .some hr
    · exact ih

lemma getElem?_length (u t : Text) : (u ++ t)[u.length]? = t.head? := by
  rw [List.getElem?_append_right (Nat.le_refl _), Nat.sub_self, ← List.head?_eq_getElem?]

lemma head?_ne_bracket {ps : List Piece} (h : Lexed ps) (hp : ∀ qs, ps ≠ .char '[' :: qs) :
    (textOf ps).head? ≠ some '[' := by
  cases ps with
  | nil => simp
  | cons p ps =>
    cases p with
    | char d =>
      have hd : d ≠ '[' := by
        rintro rfl
        exact hp ps rfl
      simpa [Piece.text] using hd
    | literal l => exact literal_head_ne h.literal_head (by decide)

lemma arrayBody?_ne {v : List Piece} (h : ¬∃ t, v = .char '[' :: t) : arrayBody? v = none := by
  unfold arrayBody?
  split
  · rename_i t
    exact absurd ⟨t, rfl⟩ h
  · rfl

lemma arrayBody?_eq_some {v d : List Piece} (h : arrayBody? v = some d) :
    ∃ t, v = .char '[' :: (d ++ .char ']' :: t) ∧ Balanced d := by
  unfold arrayBody? at h
  split at h
  · obtain ⟨t, rfl, hd⟩ := (interior?_iff (o := '[') rfl).mp h
    exact ⟨t, rfl, hd⟩
  · simp at h

lemma arrayBody?_array {d : List Piece} (hd : Balanced d) (t : List Piece) :
    arrayBody? (.char '[' :: (d ++ .char ']' :: t)) = some d :=
  (interior?_iff (o := '[') rfl).mpr ⟨t, rfl, hd⟩

lemma arrayAt?_textOf {a v z : List Piece} {q : Piece} (hl : Lexed ps) (hps : ps = a ++ v ++ q :: z)
    (hq : q ≠ .char '[') (hbal : Balanced v) {span : Span} (hspan : span.start = (textOf a).length) :
    (arrayBody? v = none ∧ arrayAt? (textOf ps) span = .ok none) ∨
      ∃ d t, v = .char '[' :: (d ++ .char ']' :: t) ∧ Balanced d ∧
        ∃ r, Listed ps a d r ∧ arrayAt? (textOf ps) span = r.map some := by
  have hlex : Lexed (v ++ q :: z) := by
    rw [hps, List.append_assoc] at hl
    exact hl.right
  by_cases hv : ∃ t, v = .char '[' :: t
  · obtain ⟨t, rfl⟩ := hv
    right
    rw [Balanced, walk_opener (k := ']') rfl] at hbal
    obtain ⟨d, rest, rfl, hd, -⟩ := exists_closed hbal
    have hps' : ps = a ++ .char '[' :: (d ++ .char ']' :: (rest ++ q :: z)) := by
      rw [hps]
      simp
    have hg : (textOf ps)[(textOf a).length]? = some '[' := by
      rw [hps', textOf_append, getElem?_length]
      rfl
    refine ⟨d, rest, rfl, hd, _, splitArguments_listed hl rfl hd hps', ?_⟩
    rw [arrayAt?, hspan]
    simp only [hg]
  · refine .inl ⟨arrayBody?_ne hv, ?_⟩
    have hne : (textOf (v ++ q :: z)).head? ≠ some '[' := by
      refine head?_ne_bracket hlex fun qs he => ?_
      cases v with
      | nil => exact hq (List.cons.inj he).1
      | cons p v =>
        obtain ⟨rfl, -⟩ := List.cons.inj he
        exact hv ⟨v, rfl⟩
    have hnn : textOf (v ++ q :: z) ≠ [] := by
      cases v with
      | nil => exact hlex.textOf_ne_nil
      | cons p v => exact hlex.textOf_ne_nil
    have hg : (textOf ps)[(textOf a).length]? = (textOf (v ++ q :: z)).head? := by
      rw [hps, List.append_assoc, textOf_append, getElem?_length]
    rw [arrayAt?, hspan]
    simp only [hg]
    obtain ⟨e, t, ht⟩ := List.exists_cons_of_ne_nil hnn
    rw [ht] at hne ⊢
    simp only [List.head?_cons] at hne ⊢
    split
    · simp at *
    · exact absurd ‹some e = some '['› hne
    · rfl

lemma dropWhile_exchange {p : Piece → Bool} {w t : List Piece} {q : Piece} (hq : p q = false)
    (h : (w ++ q :: t).dropWhile p = q :: t) (t' : List Piece) :
    (w ++ q :: t').dropWhile p = q :: t' := by
  have hsplit := List.takeWhile_append_dropWhile (p := p) (l := w ++ q :: t)
  rw [h] at hsplit
  have hw : ∀ x ∈ w, p x = true := by
    rw [← List.append_cancel_right hsplit]
    exact fun x hx => List.mem_takeWhile_imp hx
  rw [List.dropWhile_append_of_pos hw, List.dropWhile_cons_of_neg (by simp [hq])]

/-- What follows the bracket that a value begins with matters neither to the label nor to where the
value begins. -/
lemma valueOf_exchange {w t : List Piece} (hl : Lexed (w ++ .char '[' :: t))
    (hv : valueOf (w ++ .char '[' :: t) = .char '[' :: t) (t' : List Piece) :
    labelOf (w ++ .char '[' :: t') = labelOf (w ++ .char '[' :: t) ∧
      valueOf (w ++ .char '[' :: t') = .char '[' :: t' := by
  have htext : ∀ t, textOf (w ++ .char '[' :: t) = textOf w ++ '[' :: textOf t := by
    intro t
    simp [Piece.text]
  have hlabel : label? (textOf (w ++ .char '[' :: t')) = label? (textOf (w ++ .char '[' :: t)) := by
    rw [htext, htext]
    exact (label?_opener (o := '[') rfl _ _ _).1
  refine ⟨by rw [labelOf, labelOf, hlabel], ?_⟩
  cases hc : label? (textOf (w ++ .char '[' :: t)) with
  | none =>
    rw [valueOf, hc] at hv
    rw [valueOf, hlabel, hc]
    obtain rfl : w = [] := by simpa using congrArg List.length hv
    rfl
  | some r =>
    obtain ⟨name, n⟩ := r
    obtain ⟨u, c, hu, hn, hword⟩ := exists_label hl hc
    have hle := (label?_opener (o := '[') rfl (textOf w) (textOf t) []).2 name n (by rw [← htext, hc])
    obtain ⟨w', rfl⟩ : ∃ w', w = chars u ++ w' := by
      have hpre : textOf w = u ++ (textOf w).drop n := by
        have ht := congrArg textOf hu
        rw [htext, textOf_append, textOf_chars] at ht
        have := congrArg (List.take n) ht
        rw [List.take_append_of_le_length hle, ← hn, List.take_left] at this
        rw [← hn]
        conv_rhs => arg 1; rw [← this]
        rw [List.take_append_drop]
      obtain ⟨w', hw', -⟩ := hl.left.exists_chars hpre fun d hd => (hword d hd).1
      exact ⟨w', hw'⟩
    rw [List.append_assoc] at hv hc hlabel ⊢
    rw [List.append_assoc] at hlabel
    rw [valueOf_of_label hc hn] at hv
    rw [valueOf_of_label (hlabel.trans hc) hn]
    exact dropWhile_exchange (by decide) hv t'

lemma labelled_append_cons {label : Text} {cs₁ cs₂ : List (List Piece)}
    (h : ∀ c ∈ cs₁, labelOf c ≠ some label) (hc : labelOf c = some label) :
    labelled label (cs₁ ++ c :: cs₂) = some c := by
  have hnone : cs₁.find? (fun c => labelOf c = some label) = none :=
    List.find?_eq_none.mpr fun c hc => by simpa using h c hc
  rw [labelled, List.find?_append, hnone, Option.none_or, List.find?_cons_of_pos (by simpa using hc)]

/-- In `b` stands, after `y`, the array that its `dependencies` label names. It holds `d`, and would be
found there among the same other elements whatever it held. -/
structure Shows (b y d rest : List Piece) : Prop where
  pieces : b = y ++ .char '[' :: (d ++ .char ']' :: rest)
  before : Balanced y
  interior : Balanced d
  argument : ∃ n cs₁ cs₂, (∀ c ∈ cs₁, labelOf c ≠ some dependenciesLabel) ∧ ∀ {d'}, Balanced d' →
    ∃ c, contents (y ++ .char '[' :: (d' ++ .char ']' :: rest)) = some (cs₁ ++ c :: cs₂) ∧
      labelOf c = some dependenciesLabel ∧ arrayBody? (valueOf c) = some d' ∧
        (segments (y ++ .char '[' :: (d' ++ .char ']' :: rest))).length = n

variable {b : List Piece}

lemma Shows.within {p y d rest z : List Piece} {o k : Char} (h : Shows b y d rest)
    (hps : ps = p ++ .char o :: (b ++ .char k :: z)) :
    ps = (p ++ .char o :: y) ++ .char '[' :: (d ++ .char ']' :: (rest ++ .char k :: z)) := by
  rw [hps, h.pieces]
  simp

lemma Shows.named {y d d' rest : List Piece} (h : Shows b y d rest) (hd : Balanced d') :
    ∃ cs, contents (y ++ .char '[' :: (d' ++ .char ']' :: rest)) = some cs ∧ dependencyBody? cs = some d' := by
  obtain ⟨n, cs₁, cs₂, hfirst, hall⟩ := h.argument
  obtain ⟨c, hcs, hlabel, hbody, -⟩ := hall hd
  exact ⟨_, hcs, by rw [dependencyBody?, labelled_append_cons hfirst hlabel, Option.bind_some, hbody]⟩

lemma Solid.exchange {w d d' t : List Piece} (h : Solid (w ++ .char '[' :: (d ++ .char ']' :: t))) :
    Solid (w ++ .char '[' :: (d' ++ .char ']' :: t)) := by
  obtain ⟨h₁, h₂⟩ := h
  refine ⟨?_, ?_⟩
  · cases w with
    | nil => exact h₁
    | cons p w => exact h₁
  · intro p hp
    refine h₂ p ?_
    rw [List.getLast?_append_of_ne_nil _ (by simp), ← List.cons_append,
      List.getLast?_append_of_ne_nil _ (by simp)] at hp ⊢
    exact hp

lemma labelOf_map_core {u : List (List Piece)} {label : Text}
    (h : ∀ r ∈ u, labelOf (core r) ≠ some label) : ∀ c ∈ u.map core, labelOf c ≠ some label := by
  intro c hc
  obtain ⟨r, hr, rfl⟩ := List.mem_map.mp hc
  exact h r hr

/-- An array in the core of a segment may be filled otherwise: the segment remains one, and so does what is around
the array in its core. -/
lemma Segment.fill_array {s w d t r d' : List Piece} (hs : Segment s) (hr : s = lead s ++ core s ++ r)
    (hrt : Trivial r) (hw : core s = w ++ .char '[' :: (d ++ .char ']' :: t)) (hbal : Balanced w)
    (hd : Balanced d) (hd' : Balanced d') :
    Segment (lead s ++ w ++ .char '[' :: d' ++ (.char ']' :: t ++ r)) ∧
      core (lead s ++ w ++ .char '[' :: d' ++ (.char ']' :: t ++ r)) = w ++ .char '[' :: (d' ++ .char ']' :: t) := by
  constructor
  · have hopen : walk [] (lead s ++ w ++ [.char '[']) = some [']'] := by
      rw [walk_append, ((trivial_balanced (lead_trivial s)).append hbal).walk, Option.bind_some]
      exact walk_opener (o := '[') rfl [] []
    have hsplit : s = lead s ++ w ++ [.char '['] ++ d ++ (.char ']' :: t ++ r) := by
      conv_lhs => rw [hr, hw]
      simp
    have hold : Segment (lead s ++ w ++ [.char '['] ++ d ++ (.char ']' :: t ++ r)) := hsplit ▸ hs
    simpa using hold.exchange hopen hd hd'
  · have hsolid : Solid (w ++ .char '[' :: (d' ++ .char ']' :: t)) := by
      have hcore := core_solid s
      rw [hw] at hcore
      exact hcore.exchange
    have hcore := (lead_core_eq (lead_trivial s) hsolid (by simp) hrt).2
    rw [← hcore]
    simp

lemma shows_of_segment {u v cs : List (List Piece)} {s w d t : List Piece} (hl : Lexed b)
    (hb : Balanced b) (hcs : contents b = some cs) (hseg : segments b = u ++ s :: v)
    (hu : ∀ r ∈ u, labelOf (core r) ≠ some dependenciesLabel)
    (hs : labelOf (core s) = some dependenciesLabel)
    (hv : valueOf (core s) = .char '[' :: (d ++ .char ']' :: t))
    (hw : core s = w ++ valueOf (core s)) (hbal : Balanced w) (hd : Balanced d) :
    ∃ rest, Shows b (leading u ++ lead s ++ w) d rest := by
  have hall : ∀ r ∈ u ++ s :: v, Segment r := hseg ▸ fun r hr => segment_of_mem hb hr
  obtain ⟨r, hr, hrt⟩ := exists_trail s
  rw [hv] at hw
  have hfill {d'} := @Segment.fill_array s w d t r d' (hall s (by simp)) hr hrt hw hbal hd
  have hjoin : ∀ d', joined (u ++ (lead s ++ w ++ .char '[' :: d' ++ (.char ']' :: t ++ r)) :: v) =
      leading u ++ lead s ++ w ++ .char '[' :: (d' ++ .char ']' :: (t ++ r ++ following v)) := by
    intro d'
    rw [joined_mid]
    simp
  have hpieces : b = leading u ++ lead s ++ w ++
      .char '[' :: (d ++ .char ']' :: (t ++ r ++ following v)) := by
    rw [← hjoin, ← joined_segments b, hseg]
    conv_lhs => rw [hr, hw]
    simp
  have hlex : Lexed (w ++ .char '[' :: (d ++ .char ']' :: t)) := by
    refine hl.part ⟨leading u ++ lead s, r ++ following v, ?_⟩
    rw [hpieces]
    simp
  rw [contents, hseg] at hcs
  have hne := core_ne_nil_of_entries hcs (List.cons_ne_nil _ _)
  rw [entries_append hne, entries_cons_of_core (by rw [hw]; simp)] at hcs
  obtain ⟨later, hlater, -⟩ := Option.map_eq_some_iff.mp hcs
  obtain ⟨later, hlater', -⟩ := Option.map_eq_some_iff.mp hlater
  refine ⟨t ++ r ++ following v, hpieces, ?_, hd, (segments b).length, u.map core, later,
    labelOf_map_core hu, fun {d'} hd' => ⟨w ++ .char '[' :: (d' ++ .char ']' :: t), ?_⟩⟩
  · refine ((leading_balanced fun r hr => hall r (by simp [hr])).append ?_).append hbal
    exact trivial_balanced (lead_trivial s)
  · obtain ⟨hseg', hcore⟩ := hfill hd'
    have hval := valueOf_exchange hlex (by rw [← hw]; exact hv) (d' ++ .char ']' :: t)
    have hsegs : segments (leading u ++ lead s ++ w ++ .char '[' :: (d' ++ .char ']' :: (t ++ r ++ following v))) =
        u ++ (lead s ++ w ++ .char '[' :: d' ++ (.char ']' :: t ++ r)) :: v := by
      rw [← hjoin]
      refine segments_joined (by simp) fun x hx => ?_
      rcases List.mem_append.mp hx with hx | hx
      · exact hall x (by simp [hx])
      · rcases List.mem_cons.mp hx with rfl | hx
        · exact hseg'
        · exact hall x (by simp [hx])
    refine ⟨?_, ?_, ?_, ?_⟩
    · rw [contents, hsegs, entries_append hne, entries_cons_of_core (by rw [hcore]; simp), hcore, hlater']
      rfl
    · rw [hval.1, ← hw, hs]
    · rw [hval.2]
      exact arrayBody?_array hd' t
    · rw [hsegs, hseg, List.length_append, List.length_append, List.length_cons, List.length_cons]

lemma exists_labelled {cs : List (List Piece)} {items : List Argument} {item : Argument} {pos : Nat}
    {label : Text} (hcs : contents b = some cs) (hargs : argumentsFrom pos (segments b) = .ok items)
    (hi : items.find? (·.label = some label) = some item) :
    ∃ u s v comma, segments b = u ++ s :: v ∧ (∀ r ∈ u, labelOf (core r) ≠ some label) ∧
      labelOf (core s) = some label ∧ labelled label cs = some (core s) ∧
      item = argumentAt (pos + (textOf (leading u ++ lead s)).length) (core s) comma := by
  obtain ⟨hitem, before, after, rfl, hbefore⟩ := List.find?_eq_some_iff_append.mp hi
  obtain ⟨u, s, v, hseg, hu, hc, rfl⟩ := argumentsFrom_split hargs
  have hlabel : labelOf (core s) = some label := of_decide_eq_true hitem
  have hu' : ∀ r ∈ u, labelOf (core r) ≠ some label := by
    clear hargs hi hseg hitem
    induction hu with
    | nil => simp
    | @cons i r before u hir _ ih =>
      intro x hx
      rcases List.mem_cons.mp hx with rfl | hx
      · rw [← hir.1]
        simpa using hbefore i List.mem_cons_self
      · exact ih (fun j hj => hbefore j (List.mem_cons_of_mem _ hj)) x hx
  refine ⟨u, s, v, _, hseg, hu', hlabel, ?_, by rw [textOf_append, List.length_append, Nat.add_assoc]⟩
  rw [contents, hseg] at hcs
  rw [entries_append (core_ne_nil_of_entries hcs (List.cons_ne_nil _ _)),
    entries_cons_of_core hc] at hcs
  obtain ⟨later, hlater, rfl⟩ := Option.map_eq_some_iff.mp hcs
  obtain ⟨later, -, rfl⟩ := Option.map_eq_some_iff.mp hlater
  exact labelled_append_cons (labelOf_map_core hu') hlabel

/-- What stands right after a core opens no array. -/
lemma exists_after_core {t z : List Piece} {v : List (List Piece)} {k : Char} (ht : Trivial t)
    (hk : isCloser k = true) : ∃ q y, t ++ following v ++ .char k :: z = q :: y ∧ q ≠ .char '[' := by
  cases t with
  | cons q t =>
    refine ⟨q, _, rfl, ?_⟩
    rintro rfl
    exact absurd (ht _ List.mem_cons_self) (by decide)
  | nil =>
    cases v with
    | cons r v => exact ⟨comma, _, rfl, by simp [comma]⟩
    | nil =>
      refine ⟨.char k, z, rfl, fun he => ?_⟩
      cases he
      exact absurd hk (by decide)

/-- The array that the `dependencies` label names is read as a list, where it stands. -/
theorem dependencyArray?_listed {a z : List Piece} {o k : Char} {cs : List (List Piece)}
    {args : ArgumentList} (h : Lists ps a b args cs) (hl : Lexed ps) (hk : isCloser k = true)
    (hb : Balanced b) (hps : ps = a ++ .char o :: (b ++ .char k :: z)) :
    (dependencyBody? cs = none ∧ dependencyArray? (textOf ps) args = .ok none) ∨
      ∃ y d rest, dependencyBody? cs = some d ∧ Shows b y d rest ∧
        ∃ r, Listed ps (a ++ .char o :: y) d r ∧ dependencyArray? (textOf ps) args = r.map some := by
  have hfind := find?_reads h.reads dependenciesLabel
  rw [dependencyArray?, ArgumentList.find?, dependencyBody?]
  cases hi : args.items.find? (fun item => item.label = some dependenciesLabel) with
  | none =>
    rw [hi] at hfind
    generalize labelled dependenciesLabel cs = c at hfind ⊢
    cases hfind
    exact .inl ⟨rfl, rfl⟩
  | some item =>
    obtain ⟨u, s, v, last, hseg, hu, hlabel, hcore, rfl⟩ := exists_labelled h.elements h.items hi
    have hs : Segment s := segment_of_mem hb (by rw [hseg]; simp)
    obtain ⟨t, ht, htt⟩ := exists_trail s
    have hjoin : b = leading u ++ lead s ++ core s ++ (t ++ following v) := by
      rw [← joined_segments b, hseg, joined_mid]
      conv_lhs => rw [ht]
      simp
    have hlb : Lexed b := hl.part ⟨a ++ [.char o], .char k :: z, by rw [hps]; simp⟩
    have hlex : Lexed (core s ++ []) := by
      rw [List.append_nil]
      exact hlb.part ⟨leading u ++ lead s, t ++ following v, hjoin.symm⟩
    obtain ⟨w, hw, hbal⟩ := exists_before_value hlex.left
    have hval := hbal.right (hw ▸ core_balanced hs.balanced)
    obtain ⟨q, y, hqy, hq⟩ := exists_after_core (v := v) (z := z) htt hk
    have hps' : ps = a ++ .char o :: (leading u ++ lead s ++ w) ++ valueOf (core s) ++ q :: y := by
      rw [← hqy, hps, hjoin]
      conv_lhs => rw [hw]
      simp
    have hlen := congrArg (fun ps => (textOf ps).length) hw
    simp only [textOf_append, List.length_append] at hlen
    have hstart : (argumentAt ((textOf a).length + 1 + (textOf (leading u ++ lead s)).length) (core s)
        last).value.start = (textOf (a ++ .char o :: (leading u ++ lead s ++ w))).length := by
      simp only [argumentAt, textOf_append, textOf_cons, Piece.text, List.length_append,
        List.length_singleton]
      omega
    rw [hcore, Option.bind_some]
    simp only
    rcases arrayAt?_textOf hl hps' hq hval hstart with ⟨hn, ha⟩ | ⟨d, t, hv, hd, r, hr, ha⟩
    · exact .inl ⟨by rw [hn], ha⟩
    · obtain ⟨rest, hshow⟩ := shows_of_segment hlb hb h.elements hseg hu hlabel hv hw hbal hd
      exact .inr ⟨_, d, rest, by rw [hv]; exact arrayBody?_array hd t, hshow, r, hr, ha⟩

lemma Lists.dependencies {a d z : List Piece} {o k : Char} {cs es : List (List Piece)} {args : ArgumentList}
    (h : Lists ps a b args cs) (hl : Lexed ps) (hk : isCloser k = true) (hb : Balanced b)
    (hps : ps = a ++ .char o :: (b ++ .char k :: z)) (hd : dependencyBody? cs = some d)
    (hes : contents d = some es) : ∃ y rest list, Shows b y d rest ∧
      dependencyArray? (textOf ps) args = .ok (some list) ∧ Lists ps (a ++ .char o :: y) d list es := by
  rcases dependencyArray?_listed h hl hk hb hps with
    ⟨hn, -⟩ | ⟨y, d', rest, hd', hs, r, hr, harr⟩
  · simp [hn] at hd
  · obtain rfl := Option.some.inj (hd.symm.trans hd')
    obtain ⟨list, rfl, hlist⟩ := hr.lists hes
    exact ⟨y, rest, list, hs, harr, hlist⟩

end PackageInstaller.Manifest
