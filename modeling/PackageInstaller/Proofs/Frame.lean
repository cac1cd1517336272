import PackageInstaller.Proofs.Exchange
import PackageInstaller.Proofs.Insertion

/-! What an insertion leaves of the target declarations of a text. Each stands before the place, after it
or around it, and those that were found are found again. -/

namespace PackageInstaller.Manifest

/-- How a target declaration comes out of an exchange. -/
inductive Framed (e : Splice) : Call → Call → Prop
  | before {call : Call} : call.span.start < call.span.stop →
    call.span.stop ≤ (textOf e.before).length → Framed e call call
  | after {call call' : Call} : call'.body = call.body →
    call'.occurrence.capture = call.occurrence.capture →
    call.span.start < call.span.stop → (textOf (e.before ++ e.old)).length ≤ call.span.start →
    call'.span.start + (textOf e.old).length = call.span.start + (textOf e.new).length →
    call'.span.stop + (textOf e.old).length = call.span.stop + (textOf e.new).length →
    Framed e call call'
  | around {call call' : Call} {a u v z : List Piece} {w : Text} :
    e.before = a ++ chars ('.' :: w) ++ .char '(' :: u → e.after = v ++ .char ')' :: z →
    (∃ kind v, w = TargetKind.word kind ++ v ∧ ∀ c ∈ v, Text.isBlank c = true) →
    call.body = u ++ e.old ++ v → call'.body = u ++ e.new ++ v → Balanced call.body →
    call'.occurrence = call.occurrence →
    call.occurrence.span = ⟨(textOf a).length, (textOf a).length + (w.length + 2)⟩ → Framed e call call'

variable {e : Splice} {f : Text → Text} {a l r z x : List Piece} {o k : Char}
  {cs₁ cs₂ : List (List Piece)}

lemma closer_not_trivial {k : Char} (hk : isCloser k = true) {g : List Piece} (hg : Trivial g) :
    .char k ∉ g := by
  intro hm
  have hb := hg _ hm
  rcases isCloser_cases hk with rfl | rfl | rfl <;> exact absurd hb (by decide)

/-- A group that opens before the place ends before it, or else after it. -/
lemma interior?_exchange {u old new v b : List Piece} {o k : Char} (ho : closerOf? o = some k)
    (hold : Trivial old) (hnew : Balanced new) (h : interior? [k] (u ++ (old ++ v)) = some b) :
    (∃ t, u = b ++ .char k :: t ∧ interior? [k] (u ++ (new ++ v)) = some b) ∨
      ∃ y z, v = y ++ .char k :: z ∧ b = u ++ old ++ y ∧ Balanced b ∧
        interior? [k] (u ++ (new ++ v)) = some (u ++ new ++ y) := by
  have hk := (isCloser_of_closerOf? ho).2.2
  obtain ⟨rest, hrest, hb⟩ := (interior?_iff ho).mp h
  rcases append_eq_append_cons hrest with ⟨d, hd, hov⟩ | ⟨t, ht, -⟩
  · right
    obtain ⟨y, hy, hv⟩ := append_eq_append_cons_of_not_mem hov (closer_not_trivial hk hold)
    have hby : b = u ++ old ++ y := by rw [hd, hy, List.append_assoc]
    refine ⟨y, rest, hv, hby, hb, (interior?_iff ho).mpr ⟨rest, by rw [hv]; simp, ?_⟩⟩
    exact (walk_exchange (trivial_balanced hold) hnew []).trans (hby ▸ hb)
  · exact .inl ⟨t, ht, (interior?_iff ho).mpr ⟨t ++ (new ++ v), by rw [ht]; simp, hb⟩⟩

lemma sitesFrom_split {anchor : Anchor} {initial : Char} (hc : anchor.Calls initial) {p q m v : List Piece}
    (hq : .char initial ∉ q) (hm : ∀ y pos last, sitesFrom anchor y pos last m = []) :
    ∃ last, sitesFrom anchor [] 0 none (p ++ q ++ m ++ v) =
      sitesFrom anchor (q ++ (m ++ v)) 0 none p ++
        sitesFrom anchor [] (textOf (p ++ q ++ m)).length last v := by
  refine ⟨(textOf (p ++ q ++ m)).getLast?.or none, ?_⟩
  rw [sitesFrom_append, List.append_nil, Nat.zero_add, sitesFrom_append, hm, List.append_nil,
    sitesFrom_append, sitesFrom_quiet hc _ _ hq, List.append_nil]

lemma framed_of_kept {p q : List Piece} {s s' : Site} {call : Call} (h : Inserts e f a l r z o k cs₁ cs₂ x)
    (hl : Lexed e.source) (hpq : e.before = p ++ q)
    (hs : s ∈ sitesFrom .targetDeclaration (q ++ (e.old ++ e.after)) 0 none p)
    (hk : Site.Kept (q ++ (e.old ++ e.after)) (q ++ (e.new ++ e.after)) s s')
    (hc : callOf s = some call) : ∃ call', callOf s' = some call' ∧ Framed e call call' := by
  have hlex : Lexed (p ++ (q ++ (e.old ++ e.after))) := by
    rw [Splice.source, hpq] at hl
    simpa using hl
  obtain ⟨b, -, w, before, -, -, hp, hspan, hm⟩ := exists_of_mem_sitesFrom targetDeclaration_calls hlex hs
  obtain ⟨ho, u, hin, hin'⟩ := hk
  obtain ⟨body, hbody, rfl⟩ := Option.map_eq_some_iff.mp hc
  have hbefore : e.before = b ++ chars ('.' :: w) ++ .char '(' :: (u ++ q) := by
    have : p = b ++ chars ('.' :: w) ++ .char '(' :: u := by
      refine @List.append_cancel_right _ _ (q ++ (e.old ++ e.after)) _ ?_
      rw [hp, hin]
      simp [chars]
    rw [hpq, this]
    simp
  rw [Nat.zero_add] at hspan
  rw [hin, ← List.append_assoc] at hbody
  have hcall : ∀ d, interior? [')'] (u ++ q ++ (e.new ++ e.after)) = some d →
      callOf s' = some ⟨s.occurrence, d⟩ := by
    intro d hd
    rw [callOf, hin', ← List.append_assoc u, hd, ho]
    rfl
  rcases interior?_exchange (o := '(') rfl h.old h.even.new hbody with
    ⟨t, ht, hi⟩ | ⟨y, z', hy, hb, hbal, hi⟩
  · refine ⟨_, hcall _ hi, .before ?_ ?_⟩
    · simp only [Call.span, hspan]
      omega
    · rw [hbefore, ht]
      simp [Call.span, hspan, Piece.text]
      omega
  · refine ⟨_, hcall _ hi, .around hbefore hy ?_ hb rfl hbal rfl hspan⟩
    simp only [Anchor.matchHead?, Option.map_eq_some_iff] at hm
    obtain ⟨⟨n, kind⟩, hn, he⟩ := hm
    obtain ⟨rfl, -⟩ := Prod.mk.inj he
    exact ⟨kind, targetLength?_word hn⟩

lemma framed_of_moved {s s' : Site} {call : Call}
    (hm : Site.Moved (textOf (e.before ++ e.old)).length (textOf (e.before ++ e.new)).length s s')
    (hc : callOf s = some call) : ∃ call', callOf s' = some call' ∧ Framed e call call' := by
  obtain ⟨hin, hcap, i, j, hij, hspan, hspan'⟩ := hm
  obtain ⟨body, hbody, rfl⟩ := Option.map_eq_some_iff.mp hc
  refine ⟨⟨s'.occurrence, body⟩, by rw [callOf, hin, hbody]; rfl, .after rfl hcap ?_ ?_ ?_ ?_⟩ <;>
    simp only [Call.span, hspan, hspan', textOf_append, List.length_append] <;> omega

/-- The calls of one kind come out of an insertion: those that begin before the place, and those behind it. -/
lemma Inserts.sites (h : Inserts e f a l r z o k cs₁ cs₂ x) (hl : Lexed e.source) {anchor : Anchor}
    {initial : Char} (hc : anchor.Calls initial) (hq : ∀ {q}, Hushed q → .char initial ∉ q)
    (hquiet : ∀ {m}, Quiet m → ∀ y pos last, sitesFrom anchor y pos last m = []) :
    ∃ p q last near' far', e.before = p ++ q ∧ Lexed (p ++ (q ++ (e.old ++ e.after))) ∧
      sitesFrom anchor [] 0 none e.source = sitesFrom anchor (q ++ (e.old ++ e.after)) 0 none p ++
        sitesFrom anchor [] (textOf (e.before ++ e.old)).length last e.after ∧
      sitesFrom anchor [] 0 none e.target = near' ++ far' ∧
      List.Forall₂ (Site.Kept (q ++ (e.old ++ e.after)) (q ++ (e.new ++ e.after)))
        (sitesFrom anchor (q ++ (e.old ++ e.after)) 0 none p) near' ∧
      (anchor = .targetDeclaration ∨ e.after.head? ≠ some (.char initial) →
        List.Forall₂ (Site.Moved (textOf (e.before ++ e.old)).length (textOf (e.before ++ e.new)).length)
          (sitesFrom anchor [] (textOf (e.before ++ e.old)).length last e.after) far') := by
  obtain ⟨p, q, hpq, hhushed, hs, hs'⟩ := h.stops
  have hlex : Lexed (p ++ (q ++ (e.old ++ e.after))) := by
    rw [Splice.source, hpq] at hl
    simpa using hl
  rw [List.append_assoc] at hs hs'
  obtain ⟨last, hsource⟩ := sitesFrom_split hc (p := p) (v := e.after) (hq hhushed) (hquiet h.old.hushed.quiet)
  obtain ⟨last', htarget⟩ := sitesFrom_split hc (p := p) (v := e.after) (hq hhushed) (hquiet h.quiet)
  rw [← hpq] at hsource htarget
  have hafter : Lexed (e.after ++ []) := by
    rw [List.append_nil]
    exact hl.right
  refine ⟨p, q, last, _, _, hpq, hlex, hsource, htarget, sitesFrom_kept hc 0 none hlex hs hs', fun hhead => ?_⟩
  rw [sitesFrom_before hc _ last' last hafter hhead]
  exact sitesFrom_moved hc _ _ _ _ _

/-- All target declarations come out of an insertion. -/
theorem declares_target {calls : List Call} (h : Inserts e f a l r z o k cs₁ cs₂ x) (hl : Lexed e.source)
    (hd : Declares e.source calls) :
    ∃ calls', Declares e.target calls' ∧ List.Forall₂ (Framed e) calls calls' := by
  obtain ⟨p, q, last, near', far', hpq, -, hsource, htarget, hkept, hmoved⟩ :=
    h.sites hl targetDeclaration_calls (fun hq => hq.1) fun hm y pos last => (hm y pos last).1
  unfold Declares targetSites at hd ⊢
  rw [hsource] at hd
  rw [htarget]
  refine forall₂_trans (List.rel_append ?_ ?_) hd
  · refine (forall₂_mem hkept).imp fun s s' hss' call hc => ?_
    exact framed_of_kept h hl hpq hss'.1 hss'.2.2 hc
  · exact (hmoved (.inl rfl)).imp fun s s' hss' call hc => framed_of_moved hss' hc

/-- A place of the source and where it is in the target. -/
def Splice.Maps (e : Splice) (i j : Nat) : Prop :=
  (i ≤ (textOf e.before).length ∧ j = i) ∨
    ((textOf (e.before ++ e.old)).length ≤ i ∧ j + (textOf e.old).length = i + (textOf e.new).length)

variable {call call' : Call}

lemma Framed.stop (h : Framed e call call') : e.Maps call.span.stop call'.span.stop := by
  cases h with
  | before _ hs => exact .inl ⟨hs, rfl⟩
  | after _ _ hlt hs _ hstop => exact .inr ⟨by omega, hstop⟩
  | around hb _ _ hbody hbody' _ ho hspan =>
    refine .inr ⟨?_, ?_⟩
    · rw [hb]
      simp [Call.span, hspan, hbody, Piece.text]
      omega
    · simp only [Call.span, ho, hspan, hbody, hbody', textOf_append, List.length_append]
      omega

lemma Framed.start_lt {outer outer' : Nat} (h : Framed e call call') (ho : e.Maps outer outer') :
    call'.span.start < outer' ↔ call.span.start < outer := by
  have hstart : (call.span.start < (textOf e.before).length ∧ call'.span.start = call.span.start) ∨
      ((textOf (e.before ++ e.old)).length ≤ call.span.start ∧
        call'.span.start + (textOf e.old).length = call.span.start + (textOf e.new).length) := by
    cases h with
    | before hlt hs => exact .inl ⟨by omega, rfl⟩
    | after _ _ _ hs hstart _ => exact .inr ⟨hs, hstart⟩
    | around hb _ _ _ _ _ ho hspan =>
      refine .inl ⟨?_, by simp only [Call.span, ho]⟩
      rw [hb]
      simp [Call.span, hspan, Piece.text]
  rw [textOf_append, List.length_append] at hstart
  rcases ho with ⟨ho, rfl⟩ | ⟨ho, ho'⟩
  · omega
  · rw [textOf_append, List.length_append] at ho
    omega

lemma Framed.capture (h : Framed e call call') :
    call'.occurrence.capture = call.occurrence.capture := by
  cases h with
  | before => rfl
  | after _ hc => exact hc
  | around _ _ _ _ _ _ ho => rw [ho]

lemma Framed.start_le (h : Framed e call call') : call.span.start ≤ call.span.stop := by
  cases h with
  | before hlt => exact Nat.le_of_lt hlt
  | after _ _ hlt => exact Nat.le_of_lt hlt
  | around _ _ _ _ _ _ _ hspan =>
    simp only [Call.span, hspan]
    omega

lemma length_through_paren {b a u : List Piece} {w : Text} (hb : b = a ++ chars ('.' :: w) ++ .char '(' :: u) :
    (textOf b).length = (textOf a).length + (w.length + 2) + (textOf u).length := by
  rw [hb, textOf_append, List.length_append, length_before_paren, textOf_cons, Piece.text, List.length_append,
    List.length_singleton]
  omega

lemma Framed.kept (h : Framed e call call') (hs : call.span.stop ≤ (textOf e.before).length) :
    call' = call := by
  cases h with
  | before => rfl
  | after _ _ hlt hle =>
    rw [textOf_append, List.length_append] at hle
    omega
  | @around _ a u v z w hb _ _ hbody _ _ _ hspan =>
    have hlen := length_through_paren hb
    simp only [Call.span, hspan, hbody, textOf_append, List.length_append] at hs
    omega

lemma Framed.moved (h : Framed e call call') (hs : (textOf (e.before ++ e.old)).length ≤ call.span.start) :
    call'.body = call.body ∧ call'.span.start + (textOf e.old).length = call.span.start + (textOf e.new).length ∧
      call'.span.stop + (textOf e.old).length = call.span.stop + (textOf e.new).length := by
  cases h with
  | before hlt hle =>
    rw [textOf_append, List.length_append] at hs
    omega
  | after hb _ _ _ hstart hstop => exact ⟨hb, hstart, hstop⟩
  | @around _ a u v z w hb _ _ _ _ _ _ hspan =>
    have hlen := length_through_paren hb
    simp only [Call.span, hspan, textOf_append, List.length_append] at hs
    omega

lemma Framed.grown (h : Framed e call call') (hs : call.span.start < (textOf e.before).length)
    (hs' : (textOf (e.before ++ e.old)).length < call.span.stop) : call'.span.start = call.span.start ∧
      call'.span.stop + (textOf e.old).length = call.span.stop + (textOf e.new).length := by
  rw [textOf_append, List.length_append] at hs'
  cases h with
  | before hlt hle => omega
  | after _ _ _ hle =>
    rw [textOf_append, List.length_append] at hle
    omega
  | around _ _ _ hbody hbody' _ ho =>
    refine ⟨by simp only [Call.span, ho], ?_⟩
    simp only [Call.span, ho, hbody, hbody', textOf_append, List.length_append]
    omega

/-- The declarations that were found are found again, under the same names. -/
theorem located_framed {calls calls' : List Call} {outer outer' : Nat} (seen : List Text)
    (h : List.Forall₂ (fun c c' => Framed e c c' ∧ naming c'.body = naming c.body) calls calls')
    (ho : e.Maps outer outer') :
    Option.Rel (List.Forall₂ fun s s' => s'.1 = s.1 ∧ Framed e s.2 s'.2)
      (located outer seen calls) (located outer' seen calls') := by
  induction h generalizing outer outer' seen with
  | nil => exact .some .nil
  | @cons call call' calls calls' hc _ ih =>
    obtain ⟨hf, hn⟩ := hc
    rw [located, located, hn]
    by_cases hlt : call.span.start < outer
    · rw [if_pos hlt, if_pos ((hf.start_lt ho).mpr hlt)]
      exact ih seen ho
    · rw [if_neg hlt, if_neg (mt (hf.start_lt ho).mp hlt)]
      cases naming call.body with
      | none => exact .none
      | some n =>
        cases n with
        | nameless => exact ih seen ho
        | notLiteral => exact ih seen ho
        | named name =>
          simp only
          by_cases hs : seen.elem name = true
          · rw [if_pos hs, if_pos hs]
            exact ih seen hf.stop
          · rw [if_neg hs, if_neg hs]
            have hrest := ih (name :: seen) hf.stop
            generalize located call.span.stop (name :: seen) calls = found at hrest ⊢
            generalize located call'.span.stop (name :: seen) calls' = found' at hrest ⊢
            cases hrest with
            | none => exact .none
            | some hrest => exact .some (.cons ⟨rfl, hf⟩ hrest)

lemma Inserts.host (h : Inserts e f a l r z o k cs₁ cs₂ x) (ho : closerOf? o = some k) :
    e.Host o k l r :=
  ⟨ho, ⟨a, h.before⟩, ⟨z, h.after⟩, h.left, h.right⟩

lemma words_differ {b b' : List Piece} {w w' v v' : Text} {kind : TargetKind}
    (h : b ++ chars ('.' :: w) = b' ++ chars ('P' :: w')) (hw : w = kind.word ++ v)
    (hv : ∀ c ∈ v, Text.isBlank c = true) (hw' : w' = packageWord.tail ++ v')
    (hv' : ∀ c ∈ v', Text.isBlank c = true) : False := by
  have hsolid : Solid (chars ('.' :: kind.word)) := by
    refine ⟨?_, ?_⟩ <;> intro p hp <;> cases kind <;> cases hp <;> decide
  have hsolid' : Solid (chars packageWord) := by
    refine ⟨?_, ?_⟩ <;> intro p hp <;> cases hp <;> decide
  have hl : trimmed (b ++ chars ('.' :: w)) = b ++ chars ('.' :: kind.word) := by
    rw [hw, ← List.cons_append, chars_append, ← List.append_assoc,
      trimmed_append_trivial _ (trivial_chars hv), trimmed_append_solid hsolid (by simp [chars])]
  have hr : trimmed (b' ++ chars ('P' :: w')) = b' ++ chars packageWord := by
    rw [hw', ← List.cons_append, show 'P' :: packageWord.tail = packageWord from rfl, chars_append,
      ← List.append_assoc, trimmed_append_trivial _ (trivial_chars hv'),
      trimmed_append_solid hsolid' (by simp [chars, packageWord])]
  rw [h, hr] at hl
  have hlast := congrArg List.getLast? hl
  rw [List.getLast?_append_of_ne_nil _ (by simp [chars, packageWord]),
    List.getLast?_append_of_ne_nil _ (by simp [chars])] at hlast
  cases kind <;> exact absurd hlast (by decide)

/-- The brackets around the place are not those of a target declaration. -/
def Apart (a : List Piece) (o : Char) : Prop :=
  o = '(' → ∃ b w v, a = b ++ chars ('P' :: w) ∧ w = packageWord.tail ++ v ∧
    ∀ c ∈ v, Text.isBlank c = true

lemma Framed.deep (h : Inserts e f a l r z o k cs₁ cs₂ x) (ho : closerOf? o = some k) (ha : Apart a o)
    (hf : Framed e call call') : e.Deep call.body call'.body := by
  cases hf with
  | before => exact .refl _
  | after hb => exact .inl hb
  | @around _ b u v z' w hb hafter hw hbody hbody' hbal _ _ =>
    rw [hbody, List.append_assoc] at hbal
    obtain ⟨s, hs⟩ := exists_walk_left hbal
    refine .inr ⟨u, v, ?_⟩
    cases s with
    | nil =>
      -- the place would stand directly inside of the declaration
      obtain ⟨hab, rfl, -⟩ := opener_unique (o := '(') rfl ho hs h.left (hb.symm.trans h.before)
      obtain ⟨b', w', v', rfl, hw', hv'⟩ := ha rfl
      obtain ⟨kind, v, hw, hv⟩ := hw
      exact absurd (words_differ hab hw hv hw' hv') id
    | cons k₁ s =>
      exact ⟨k₁, s, ⟨hbody, hbody', ⟨b ++ chars ('.' :: w) ++ [.char '('], by rw [hb]; simp⟩,
        ⟨.char ')' :: z', hafter.symm⟩⟩, hs⟩

lemma packageSites_target (h : Inserts e f a l r z o k cs₁ cs₂ x) (hl : Lexed e.source) :
    ∃ near near' far far' u, packageSites e.source = near ++ far ∧ packageSites e.target = near' ++ far' ∧
      List.Forall₂ (Site.Kept (u ++ (e.old ++ e.after)) (u ++ (e.new ++ e.after))) near near' ∧
      (∀ s ∈ near, s.occurrence.span.start < (textOf e.before).length) ∧
      (∀ s ∈ far, (textOf e.before).length ≤ s.occurrence.span.start) ∧
      (e.after.head? ≠ some (.char 'P') → List.Forall₂ (Site.Moved (textOf (e.before ++ e.old)).length
        (textOf (e.before ++ e.new)).length) far far') := by
  obtain ⟨p, q, last, near', far', hpq, hlex, hsource, htarget, hkept, hmoved⟩ :=
    h.sites hl packageCall_calls (fun hq => hq.2) fun hm y pos last => (hm y pos last).2
  have hafter : Lexed (e.after ++ []) := by
    rw [List.append_nil]
    exact hl.right
  refine ⟨_, near', _, far', q, hsource, htarget, hkept, fun s hs => ?_, fun s hs => ?_,
    fun hhead => hmoved (.inr hhead)⟩
  · obtain ⟨b, c, w, -, hp, -, -, hspan, -⟩ := exists_of_mem_sitesFrom packageCall_calls hlex hs
    rw [hspan, hpq, hp]
    simp [Piece.text]
  · obtain ⟨b, c, w, -, -, -, -, hspan, -⟩ := exists_of_mem_sitesFrom packageCall_calls hafter hs
    rw [hspan]
    simp only [textOf_append, List.length_append]
    omega

lemma packageSites_target_nil (h : Inserts e f a l r z o k cs₁ cs₂ x) (hl : Lexed e.source)
    (hq : e.after.head? ≠ some (.char 'P')) (hn : packageSites e.source = []) :
    packageSites e.target = [] := by
  obtain ⟨near, near', far, far', u, hs, ht, hnear, -, -, hfar⟩ := packageSites_target h hl
  rw [hn] at hs
  obtain ⟨rfl, rfl⟩ := List.append_eq_nil_iff.mp hs.symm
  obtain rfl : near' = [] := by simpa using hnear
  obtain rfl : far' = [] := by simpa using hfar hq
  rw [ht]
  rfl

/-- The first package call is still the first, with the place inside of it or not. -/
theorem holds_target {b c y : List Piece} {w : Text} (h : Inserts e f a l r z o k cs₁ cs₂ x)
    (hl : Lexed e.source) (hh : Holds e.source b w c y)
    (hq : e.after.head? ≠ some (.char 'P') ∨ ∃ u, e.before = b ++ chars ('P' :: w) ++ .char '(' :: u) :
    ∃ b' w' c' y', Holds e.target b' w' c' y' ∧ (c' = c ∨ ∃ u v t,
      e.before = b ++ chars ('P' :: w) ++ .char '(' :: u ∧ e.after = v ++ .char ')' :: t ∧
        c = u ++ e.old ++ v ∧ c' = u ++ e.new ++ v) := by
  obtain ⟨s, rest, hs, hin, hspan⟩ := hh.first
  obtain ⟨near, near', far, far', q, hsource, htarget, hnear, hbefore, hbehind, hfar⟩ :=
    packageSites_target h hl
  rw [hs] at hsource
  cases hnear with
  | nil =>
    have hlow := hbehind s (by rw [← List.nil_append far, ← hsource]; exact List.mem_cons_self)
    have hq : e.after.head? ≠ some (.char 'P') := by
      refine hq.resolve_right ?_
      rintro ⟨u, hu⟩
      rw [hspan, hu] at hlow
      simp only [textOf_append, textOf_chars, List.length_append, List.length_cons] at hlow
      omega
    obtain rfl : s :: rest = far := hsource
    obtain ⟨s', rest', hm, -, rfl⟩ := List.forall₂_cons_left_iff.mp (hfar hq)
    obtain ⟨b', w', hh'⟩ := holds_of_first h.lexed htarget (hm.1.trans hin) hh.balanced
    exact ⟨b', w', c, y, hh', .inl rfl⟩
  | @cons s₁ s' near near' hk =>
    obtain ⟨rfl, -⟩ := List.cons.inj hsource
    obtain ⟨-, u, hu, hu'⟩ := hk
    have hcall : e.before = b ++ chars ('P' :: w) ++ .char '(' :: (u ++ q) := by
      refine @List.append_cancel_right _ _ (e.old ++ e.after) _ ?_
      rw [← List.append_assoc, ← Splice.source, hh.pieces, ← hin, hu]
      simp
    rw [hin, ← List.append_assoc] at hu
    have hi := (interior?_iff (o := '(') rfl).mpr ⟨y, hu.symm, hh.balanced⟩
    rw [← List.append_assoc] at hu'
    rcases interior?_exchange (o := '(') rfl h.old h.even.new hi with
      ⟨t, ht, hi'⟩ | ⟨v, t, hv, hc, -, hi'⟩
    · obtain ⟨y', hy', hb'⟩ := (interior?_iff (o := '(') rfl).mp hi'
      obtain ⟨b', w', hh'⟩ := holds_of_first h.lexed htarget (hu'.trans hy') hb'
      exact ⟨b', w', c, y', hh', .inl rfl⟩
    · obtain ⟨y', hy', hb'⟩ := (interior?_iff (o := '(') rfl).mp hi'
      obtain ⟨b', w', hh'⟩ := holds_of_first h.lexed htarget (hu'.trans hy') hb'
      exact ⟨b', w', _, y', hh', .inr ⟨_, v, t, hcall, hv, hc, rfl⟩⟩

/-- The first package call with the place inside of it stays where it is, and holds what the exchange makes of
its arguments. -/
theorem holds_inside {b u v y : List Piece} {w : Text} (h : Inserts e f a l r z o k cs₁ cs₂ x)
    (hl : Lexed e.source) (hh : Holds e.source b w (u ++ e.old ++ v) y)
    (hb : e.before = b ++ chars ('P' :: w) ++ .char '(' :: u) :
    Holds e.target b w (u ++ e.new ++ v) y ∧
      (packageSites e.target).head?.map (·.occurrence) = (packageSites e.source).head?.map (·.occurrence) := by
  obtain ⟨s, rest, hs, hin, hspan⟩ := hh.first
  obtain ⟨near, near', far, far', q, hsource, htarget, hnear, -, hbehind, -⟩ := packageSites_target h hl
  have hafter : e.after = v ++ .char ')' :: y := by
    have hp := hh.pieces
    rw [Splice.source, hb] at hp
    have : b ++ chars ('P' :: w) ++ .char '(' :: (u ++ e.old) ++ e.after =
        b ++ chars ('P' :: w) ++ .char '(' :: (u ++ e.old) ++ (v ++ .char ')' :: y) := by
      simpa using hp
    exact List.append_cancel_left this
  rw [hs] at hsource
  cases hnear with
  | nil =>
    have hlow := hbehind s (by rw [← List.nil_append far, ← hsource]; exact List.mem_cons_self)
    rw [hspan, hb] at hlow
    simp only [textOf_append, textOf_chars, List.length_append, List.length_cons] at hlow
    omega
  | @cons s₁ s' near near' hk =>
    obtain ⟨rfl, -⟩ := List.cons.inj hsource
    obtain ⟨hocc, u', hu, hu'⟩ := hk
    have hq : u' ++ q = u := by
      refine @List.append_cancel_right _ _ (e.old ++ e.after) _ ?_
      rw [List.append_assoc, ← hu, hin, hafter]
      simp
    rw [← List.append_assoc, hq, hafter] at hu'
    refine ⟨⟨?_, hh.word, (walk_exchange h.even.old h.even.new []).trans hh.balanced, s', _, htarget, ?_, ?_⟩, ?_⟩
    · rw [Splice.target, hb, hafter]
      simp
    · rw [hu']
      simp
    · rw [hocc, hspan]
    · rw [htarget, hs]
      exact congrArg some hocc

lemma Framed.outside {p q : List Piece} {s : List Char} (h : Framed e call call')
    (hb : e.before = p ++ .char '(' :: q) (hw : walk [] q = some s) (hs : ')' ∉ s)
    (hn : ¬(call.span.start ≤ (textOf p).length ∧ (textOf p).length < call.span.stop)) :
    call.span.stop ≤ (textOf e.before).length ∨ (textOf (e.before ++ e.old)).length ≤ call.span.start := by
  cases h with
  | before _ hle => exact .inl hle
  | after _ _ _ hle => exact .inr hle
  | @around _ b u v z' w hb' _ _ hbody _ hbal _ hspan =>
    exfalso
    rw [hbody, List.append_assoc] at hbal
    obtain ⟨s', hs'⟩ := exists_walk_left hbal
    have hlen := length_through_paren hb'
    have hp : (textOf p).length < (textOf e.before).length := by simp [hb, Piece.text]
    simp only [Call.span, hspan, hbody, textOf_append, List.length_append] at hn
    rcases append_cons_eq_append_cons (hb.symm.trans hb') with ⟨rfl, -, -⟩ | ⟨m, -, rfl⟩ | ⟨m, rfl, -⟩
    · simp only [textOf_append, textOf_chars, List.length_append, List.length_cons] at hn hp
      omega
    · -- the parenthesis of the declaration would still be open at the place
      rw [walk_append] at hw
      obtain ⟨s₁, -, hw⟩ := Option.bind_eq_some_iff.mp hw
      rw [walk_opener (k := ')') rfl] at hw
      have := walk_below (')' :: s₁) hs'
      rw [List.nil_append, hw] at this
      obtain rfl := Option.some.inj this
      simp at hs
    · simp only [textOf_append, List.length_append] at hn hp
      omega

end PackageInstaller.Manifest
