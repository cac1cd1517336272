import Mathlib.Data.List.Basic
import PackageInstaller.Manifest.Literal

/-! What a scan reads to its end is read the same whatever follows: the scanner never looks past the
last character of the literal or group that it finishes. -/

namespace PackageInstaller.Manifest

/-- The least number of characters that a frame still needs before it is finished. -/
def Frame.least : Frame → Nat
  | .string _ hashes multiline => quoteCount multiline + hashes
  | .group _ _ _ => 1

def leastRest : List Frame → Nat
  | [] => 0
  | frame :: below => frame.least + leastRest below

lemma quoteCount_pos (multiline : Bool) : 0 < quoteCount multiline := by
  cases multiline <;> simp [quoteCount]

lemma Frame.least_pos (frame : Frame) : 0 < frame.least := by
  cases frame with
  | string start hashes multiline => exact Nat.add_pos_left (quoteCount_pos multiline) hashes
  | group => exact Nat.one_pos

lemma leastRest_pos {stack : List Frame} (h : stack ≠ []) : 0 < leastRest stack := by
  cases stack with
  | nil => exact absurd rfl h
  | cons frame below =>
    have := frame.least_pos
    simp only [leastRest]
    omega

lemma closingMark_length (hashes : Nat) (multiline : Bool) :
    (closingMark hashes multiline).length = quoteCount multiline + hashes := by
  simp [closingMark]

lemma escapeMark_length (hashes : Nat) : (escapeMark hashes).length = hashes + 1 := by
  simp [escapeMark]

lemma length_le_of_isPrefixOf {a t : Text} (h : a.isPrefixOf t = true) : a.length ≤ t.length :=
  (List.isPrefixOf_iff_prefix.mp h).length_le

lemma isPrefixOf_append {a u : Text} (s : Text) (h : a.length ≤ u.length) :
    a.isPrefixOf (u ++ s) = a.isPrefixOf u := by
  rw [Bool.eq_iff_iff, List.isPrefixOf_iff_prefix, List.isPrefixOf_iff_prefix]
  exact ⟨fun hp => List.prefix_of_prefix_length_le hp (List.prefix_append u s) h,
    fun hp => hp.trans (List.prefix_append u s)⟩

lemma bracketStep_cases {pos start : Nat} {opener : Char} {expected : List Char}
    {below : List Frame} {c : Char} {move : Move}
    (h : bracketStep pos start opener expected below c = .ok move) :
    move.extra = 0 ∧ ((∃ e, move.stack = .group start opener e :: below) ∨
      (isCloser c = true ∧ expected = [c] ∧ move.stack = below)) := by
  unfold bracketStep at h
  split at h
  · obtain rfl := Except.ok.inj h
    exact ⟨rfl, .inl ⟨_, rfl⟩⟩
  · split at h
    · rename_i hc
      split at h
      · simp at h
      · split at h
        · simp at h
        · rename_i closer rest hcl
          split at h
          · rename_i hr
            obtain rfl := Except.ok.inj h
            subst hr
            exact ⟨rfl, .inr ⟨hc, by simp at hcl; simp [hcl], rfl⟩⟩
          · obtain rfl := Except.ok.inj h
            exact ⟨rfl, .inl ⟨_, rfl⟩⟩
    · obtain rfl := Except.ok.inj h
      exact ⟨rfl, .inl ⟨_, rfl⟩⟩

lemma codeStep_least {pos start : Nat} {opener : Char} {expected : List Char} {below : List Frame}
    {c : Char} {t : Text} {move : Move}
    (h : codeStep pos start opener expected below c t = .ok move) :
    1 + leastRest below ≤ 1 + move.extra + leastRest move.stack ∧
      (move.extra ≤ t.length ∨ move.stack ≠ []) := by
  unfold codeStep at h
  simp only at h
  split at h
  · obtain rfl := Except.ok.inj h
    refine ⟨?_, .inr (by simp)⟩
    simp only [leastRest, Frame.least]
    omega
  · split at h
    · obtain rfl := Except.ok.inj h
      refine ⟨?_, .inr (by simp)⟩
      simp only [leastRest, Frame.least]
      omega
    · simp at h
  · obtain rfl := Except.ok.inj h
    refine ⟨?_, .inr (by simp)⟩
    simp only [leastRest, Frame.least]
    omega
  · obtain ⟨he, ⟨e, hs⟩ | ⟨-, -, hs⟩⟩ := bracketStep_cases h
    · rw [hs, he]
      exact ⟨by simp only [leastRest, Frame.least]; omega, .inl (Nat.zero_le _)⟩
    · rw [hs, he]
      exact ⟨by omega, .inl (Nat.zero_le _)⟩

lemma stringStep_least {pos start hashes : Nat} {multiline : Bool} {below : List Frame} {c : Char}
    {t : Text} {move : Move}
    (h : stringStep pos start hashes multiline below (c :: t) = .ok move) :
    quoteCount multiline + hashes + leastRest below ≤ 1 + move.extra + leastRest move.stack ∧
      (move.extra ≤ t.length ∨ move.stack ≠ []) := by
  unfold stringStep at h
  simp only at h
  split at h
  · split at h
    · obtain rfl := Except.ok.inj h
      refine ⟨?_, .inr (by simp)⟩
      simp only [leastRest, Frame.least]
      omega
    · obtain rfl := Except.ok.inj h
      refine ⟨?_, .inr (by simp)⟩
      simp only [leastRest, Frame.least]
      omega
  · split at h
    · rename_i hc
      obtain rfl := Except.ok.inj h
      have hl := length_le_of_isPrefixOf hc
      rw [closingMark_length, List.length_cons] at hl
      have := quoteCount_pos multiline
      exact ⟨by simp only; omega, .inl (by simp only; omega)⟩
    · split at h
      · simp at h
      · obtain rfl := Except.ok.inj h
        refine ⟨?_, .inr (by simp)⟩
        simp only [leastRest, Frame.least]
        omega

lemma step_least {pos : Nat} {frame : Frame} {below : List Frame} {c : Char} {t : Text}
    {move : Move} (h : step pos frame below c t = .ok move) :
    leastRest (frame :: below) ≤ 1 + move.extra + leastRest move.stack ∧
      (move.extra ≤ t.length ∨ move.stack ≠ []) := by
  cases frame with
  | string start hashes multiline => exact stringStep_least h
  | group start opener expected => exact codeStep_least h

lemma run_step {pos : Nat} {frame : Frame} {below : List Frame} {c : Char} {t : Text} {move : Move}
    (h : step pos frame below c t = .ok move) :
    run 0 pos (frame :: below) (c :: t) = run move.extra (pos + 1) move.stack t := by
  rw [run, h]

lemma exists_step_of_run {pos q : Nat} {frame : Frame} {below : List Frame} {c : Char} {t : Text}
    (h : run 0 pos (frame :: below) (c :: t) = .ok q) :
    ∃ move, step pos frame below c t = .ok move ∧ run move.extra (pos + 1) move.stack t = .ok q := by
  rw [run] at h
  split at h
  · rename_i move hm
    exact ⟨move, hm, h⟩
  · simp at h

lemma run_bounds {extra pos q : Nat} {stack : List Frame} {t : Text}
    (h : run extra pos stack t = .ok q) (he : extra ≤ t.length ∨ stack ≠ []) :
    pos + extra + leastRest stack ≤ q ∧ q ≤ pos + t.length := by
  induction t generalizing extra pos stack with
  | nil =>
    cases stack with
    | nil =>
      have : pos = q := by cases extra <;> simpa [run] using h
      simp_all [leastRest]
    | cons frame below => cases extra <;> simp [run] at h
  | cons c t ih =>
    cases extra with
    | succ extra =>
      rw [run] at h
      have := ih h (by simpa using he)
      simp only [List.length_cons]
      omega
    | zero =>
      cases stack with
      | nil =>
        have : pos = q := by simpa [run] using h
        simp [leastRest, this]
      | cons frame below =>
        obtain ⟨move, hm, h⟩ := exists_step_of_run h
        obtain ⟨hl, hx⟩ := step_least hm
        have := ih h hx
        simp only [List.length_cons]
        omega

lemma hashRun_le (t : Text) : hashRun t ≤ t.length := by
  fun_induction hashRun t with
  | case1 t ih => simp only [List.length_cons]; omega
  | case2 => exact Nat.zero_le _

lemma hashRun_append {u : Text} (s : Text) (h : hashRun u < u.length) :
    hashRun (u ++ s) = hashRun u := by
  fun_induction hashRun u with
  | case1 t ih => simpa [hashRun] using ih (by simpa using h)
  | case2 u hu =>
    cases u with
    | nil => simp at h
    | cons c t =>
      have hc : c ≠ '#' := fun hc => hu t (by rw [hc])
      simp [hashRun, hc]

lemma hashRun_append_full {u : Text} (s : Text) (h : hashRun u = u.length) :
    hashRun (u ++ s) = u.length + hashRun s := by
  fun_induction hashRun u with
  | case1 t ih =>
    have := ih (by simpa using h)
    simp only [List.cons_append, hashRun, List.length_cons]
    omega
  | case2 u hu =>
    have : u = [] := List.length_eq_zero_iff.mp h.symm
    simp [this]

lemma blockCommentLength?_cons_cons (depth : Nat) (c d : Char) (t : Text) :
    blockCommentLength? depth (c :: d :: t) =
      if c = '/' ∧ d = '*' then (blockCommentLength? (depth + 1) t).map (· + 2)
      else if c = '*' ∧ d = '/' then
        if depth ≤ 1 then some 2 else (blockCommentLength? (depth - 1) t).map (· + 2)
      else (blockCommentLength? depth (d :: t)).map (· + 1) := by
  by_cases h₁ : c = '/' ∧ d = '*'
  · obtain ⟨rfl, rfl⟩ := h₁
    simp [blockCommentLength?]
  · by_cases h₂ : c = '*' ∧ d = '/'
    · obtain ⟨rfl, rfl⟩ := h₂
      simp [blockCommentLength?]
    · rw [if_neg h₁, if_neg h₂, blockCommentLength?]
      · rintro t' rfl hd
        exact h₁ ⟨rfl, (List.cons.inj hd).1⟩
      · rintro t' rfl hd
        exact h₂ ⟨rfl, (List.cons.inj hd).1⟩

lemma blockCommentLength?_bounds {depth n : Nat} {t : Text}
    (h : blockCommentLength? depth t = some n) : 2 ≤ n ∧ n ≤ t.length := by
  fun_induction blockCommentLength? depth t generalizing n with
  | case1 depth t ih | case3 depth t hd ih =>
    obtain ⟨m, hm, rfl⟩ := Option.map_eq_some_iff.mp h
    have := ih hm
    simp only [List.length_cons]
    omega
  | case2 depth t hd =>
    obtain rfl : 2 = n := by simpa using h
    simp only [List.length_cons]
    omega
  | case4 depth c t _ _ ih =>
    obtain ⟨m, hm, rfl⟩ := Option.map_eq_some_iff.mp h
    have := ih hm
    simp only [List.length_cons]
    omega
  | case5 => simp at h

lemma blockCommentLength?_append {depth n : Nat} {u s : Text} (s' : Text)
    (h : blockCommentLength? depth (u ++ s) = some n) (hn : n ≤ u.length) :
    blockCommentLength? depth (u ++ s') = some n := by
  induction hk : u.length using Nat.strongRecOn generalizing u depth n with
  | ind k ih =>
    have hb := blockCommentLength?_bounds h
    match u with
    | [] | [_] =>
      simp only [List.length_nil, List.length_cons] at hn
      omega
    | c :: d :: u =>
      simp only [List.cons_append, blockCommentLength?_cons_cons] at h ⊢
      simp only [List.length_cons] at hn hk
      split_ifs at h ⊢ with h₁ h₂ h₃
      · obtain ⟨m, hm, rfl⟩ := Option.map_eq_some_iff.mp h
        rw [ih u.length (by omega) hm (by omega) rfl, Option.map_some]
      · exact h
      · obtain ⟨m, hm, rfl⟩ := Option.map_eq_some_iff.mp h
        rw [ih u.length (by omega) hm (by omega) rfl, Option.map_some]
      · obtain ⟨m, hm, rfl⟩ := Option.map_eq_some_iff.mp h
        rw [← List.cons_append] at hm ⊢
        rw [ih (d :: u).length (by simp; omega) hm (by simp; omega) rfl, Option.map_some]

lemma lineCommentLength_append {u s : Text} (s' : Text)
    (h : lineCommentLength (u ++ s) < u.length) :
    lineCommentLength (u ++ s') = lineCommentLength (u ++ s) := by
  unfold lineCommentLength at h ⊢
  induction u with
  | nil => simp at h
  | cons c u ih =>
    by_cases hc : c = '\n'
    · simp [hc]
    · have hd : decide (c ≠ '\n') = true := by simpa using hc
      simp only [List.cons_append, List.takeWhile_cons, hd, if_true, List.length_cons] at h ⊢
      rw [ih (by omega)]

lemma stringOpening?_eq (hashes : Nat) (t : Text) :
    stringOpening? hashes t =
      if t.head? = some '"' then some (.string hashes (['"', '"', '"'].isPrefixOf t)) else none := by
  rcases t with _ | ⟨a, _ | ⟨b, _ | ⟨c, t⟩⟩⟩
  · rfl
  · by_cases ha : a = '"' <;> simp [stringOpening?, ha, List.isPrefixOf]
  · by_cases ha : a = '"' <;> by_cases hb : b = '"' <;>
      simp [stringOpening?, ha, hb, List.isPrefixOf]
  · by_cases ha : a = '"' <;> by_cases hb : b = '"' <;> by_cases hc : c = '"' <;>
      simp [stringOpening?, ha, hb, hc, List.isPrefixOf, eq_comm (a := '"')]

lemma stringOpening?_append {hashes : Nat} {u : Text} (s s' : Text) (h : 3 ≤ u.length) :
    stringOpening? hashes (u ++ s') = stringOpening? hashes (u ++ s) := by
  have hu : u ≠ [] := by rintro rfl; simp at h
  simp only [stringOpening?_eq, List.head?_append_of_ne_nil u hu]
  rw [isPrefixOf_append s' (by simpa using h), isPrefixOf_append s (by simpa using h)]

lemma opening?_slash (d : Char) (t : Text) :
    opening? ('/' :: d :: t) =
      if d = '/' then some .lineComment else if d = '*' then some .blockComment else none := by
  split_ifs with h₁ h₂
  · subst h₁
    rfl
  · subst h₂
    rfl
  · rw [opening?]
    · rw [show hashRun ('/' :: d :: t) = 0 by simp [hashRun], stringOpening?_eq]
      simp
    · intro _ hd
      exact h₁ (List.cons.inj (List.cons.inj hd).2).1
    · intro _ hd
      exact h₂ (List.cons.inj (List.cons.inj hd).2).1

lemma opening?_of_ne {c : Char} (t : Text) (h : c ≠ '/') :
    opening? (c :: t) =
      stringOpening? (hashRun (c :: t)) ((c :: t).drop (hashRun (c :: t))) := by
  rw [opening?]
  · intro _ hc
    exact absurd (List.cons.inj hc).1 h
  · intro _ hc
    exact absurd (List.cons.inj hc).1 h

lemma eq_slash_of_opening? {c : Char} {t : Text} {opening : Opening}
    (h : opening? (c :: t) = some opening) (hs : ∀ k m, opening ≠ .string k m) : c = '/' := by
  by_contra hc
  rw [opening?_of_ne t hc, stringOpening?_eq] at h
  split_ifs at h
  exact hs _ _ (Option.some.inj h).symm

lemma hashes_eq_of_opening? {t : Text} {hashes : Nat} {multiline : Bool}
    (h : opening? t = some (.string hashes multiline)) : hashes = hashRun t := by
  unfold opening? at h
  split at h
  · simp at h
  · simp at h
  · rw [stringOpening?_eq] at h
    split_ifs at h
    exact (Opening.string.inj (Option.some.inj h)).1.symm

lemma hashRun_replicate (k : Nat) : hashRun (List.replicate k '#') = k := by
  induction k with
  | zero => rfl
  | succ k ih => rw [List.replicate_succ, hashRun, ih]

lemma eq_replicate_of_hashRun {u : Text} (h : hashRun u = u.length) :
    u = List.replicate u.length '#' := by
  fun_induction hashRun u with
  | case1 t ih =>
    rw [List.length_cons, List.replicate_succ, ← ih (by simpa using h)]
  | case2 u hu => rw [← h]; exact List.length_eq_zero_iff.mp h.symm

lemma opening?_append_of_room {c : Char} {u : Text} (s s' : Text)
    (h : hashRun (c :: u) + 3 ≤ (c :: u).length) :
    opening? (c :: u ++ s') = opening? (c :: u ++ s) := by
  by_cases hc : c = '/'
  · subst hc
    match u with
    | [] => simp at h
    | d :: u => simp only [List.cons_append, opening?_slash]
  · have hr : ∀ s, hashRun (c :: (u ++ s)) = hashRun (c :: u) := fun s =>
      hashRun_append (u := c :: u) s (by omega)
    have hd : ∀ s : Text, (c :: (u ++ s)).drop (hashRun (c :: u)) =
        (c :: u).drop (hashRun (c :: u)) ++ s := fun s => by
      rw [← List.cons_append, List.drop_append_of_le_length (by omega)]
    rw [List.cons_append, List.cons_append, opening?_of_ne _ hc, opening?_of_ne _ hc, hr, hr, hd, hd]
    exact stringOpening?_append s s' (by rw [List.length_drop]; omega)

lemma opening?_append_none {c : Char} {u s : Text} (s' : Text)
    (h : opening? (c :: u ++ s) = none) (hr : hashRun (c :: u) < (c :: u).length)
    (hc : c = '/' → u ≠ []) : opening? (c :: u ++ s') = none := by
  by_cases hc' : c = '/'
  · subst hc'
    match u, hc rfl with
    | d :: u, _ =>
      simp only [List.cons_append, opening?_slash] at h ⊢
      exact h
  · have hr : ∀ s, hashRun (c :: (u ++ s)) = hashRun (c :: u) := fun s =>
      hashRun_append (u := c :: u) s hr
    have hd : ∀ s : Text, (c :: (u ++ s)).drop (hashRun (c :: u)) =
        (c :: u).drop (hashRun (c :: u)) ++ s := fun s => by
      rw [← List.cons_append, List.drop_append_of_le_length (by omega)]
    have hne : (c :: u).drop (hashRun (c :: u)) ≠ [] := by
      intro hn
      have := congrArg List.length hn
      rw [List.length_drop, List.length_nil] at this
      omega
    rw [List.cons_append, opening?_of_ne _ hc', hr, hd, stringOpening?_eq,
      List.head?_append_of_ne_nil _ hne] at h ⊢
    split_ifs at h ⊢
    rfl

lemma stringStep_append {pos start hashes : Nat} {multiline : Bool} {below : List Frame} {c : Char}
    {u s : Text} {move : Move} (s' : Text)
    (h : stringStep pos start hashes multiline below (c :: u ++ s) = .ok move)
    (hl : quoteCount multiline + hashes ≤ (c :: u).length)
    (hm : 1 + move.extra + leastRest move.stack ≤ (c :: u).length) :
    stringStep pos start hashes multiline below (c :: u ++ s') = .ok move := by
  have hq := quoteCount_pos multiline
  have he : (escapeMark hashes).length ≤ (c :: u).length := by rw [escapeMark_length]; omega
  have hc : (closingMark hashes multiline).length ≤ (c :: u).length := by
    rw [closingMark_length]; omega
  unfold stringStep at h ⊢
  simp only [isPrefixOf_append _ he, isPrefixOf_append _ hc] at h ⊢
  split at h
  · rename_i hp
    rw [if_pos hp]
    have hx : move.extra = hashes + 1 := by
      split at h <;> (obtain rfl := Except.ok.inj h; rfl)
    have hd : hashes + 1 < (c :: u).length := by omega
    obtain ⟨d, w, hw⟩ : ∃ d w, (c :: u).drop (hashes + 1) = d :: w :=
      List.exists_cons_of_length_pos (by rw [List.length_drop]; omega)
    rw [List.drop_append_of_le_length (by omega), hw] at h ⊢
    by_cases hb : d = '('
    · subst hb
      exact h
    · simpa [hb] using h
  · rename_i hp
    rw [if_neg hp]
    exact h

lemma codeStep_append {pos start : Nat} {opener : Char} {expected : List Char} {below : List Frame}
    {c : Char} {u s : Text} {move : Move} (s' : Text)
    (h : codeStep pos start opener expected below c (u ++ s) = .ok move)
    (hr : hashRun (c :: u) < (c :: u).length)
    (hm : 1 + move.extra + leastRest move.stack ≤ (c :: u).length) :
    codeStep pos start opener expected below c (u ++ s') = .ok move := by
  unfold codeStep at h ⊢
  simp only [← List.cons_append] at h ⊢
  cases ho : opening? (c :: u ++ s) with
  | none =>
    rw [ho] at h
    have hu : c = '/' → u ≠ [] := by
      rintro rfl rfl
      have : move = ⟨0, .group start opener expected :: below⟩ := by
        simpa [bracketStep, closerOf?, isCloser] using h.symm
      rw [this] at hm
      simp only [leastRest, Frame.least, List.length_cons, List.length_nil] at hm
      omega
    rw [opening?_append_none s' ho hr hu]
    exact h
  | some opening =>
    rw [ho] at h
    cases opening with
    | lineComment =>
      obtain rfl := Except.ok.inj h
      simp only [leastRest, Frame.least] at hm
      have hc := eq_slash_of_opening? ho (by simp)
      subst hc
      obtain ⟨d, u, rfl⟩ : ∃ d u', u = d :: u' :=
        List.exists_cons_of_length_pos (by simp only [List.length_cons] at hm; omega)
      rw [List.cons_append, List.cons_append, opening?_slash] at ho ⊢
      rw [ho, ← List.cons_append, ← List.cons_append,
        lineCommentLength_append s' (u := '/' :: d :: u) (s := s) (by omega)]
    | blockComment =>
      have hc := eq_slash_of_opening? ho (by simp)
      subst hc
      cases hb : blockCommentLength? 0 ('/' :: u ++ s) with
      | none =>
        rw [hb] at h
        simp at h
      | some n =>
        rw [hb] at h
        obtain rfl := Except.ok.inj h
        simp only [leastRest, Frame.least] at hm
        have hn := blockCommentLength?_bounds hb
        obtain ⟨d, u, rfl⟩ : ∃ d u', u = d :: u' :=
          List.exists_cons_of_length_pos (by simp only [List.length_cons] at hm; omega)
        have hb' := blockCommentLength?_append s' hb (by omega)
        rw [List.cons_append, List.cons_append, opening?_slash] at ho ⊢
        rw [ho]
        simp only [List.cons_append] at hb' ⊢
        rw [hb']
    | string hashes multiline =>
      obtain rfl := Except.ok.inj h
      simp only [leastRest, Frame.least] at hm
      have hk : hashes = hashRun (c :: u ++ s) := hashes_eq_of_opening? ho
      rw [hashRun_append s hr] at hk
      have := quoteCount_pos multiline
      rw [(opening?_append_of_room s s' (by omega)).trans ho]

/-- A run of hashes at the very end of a text finishes no group: the next quote would begin a
string. -/
lemma lt_of_run_hashes {pos q start k : Nat} {opener : Char} {expected : List Char}
    {below : List Frame} {s : Text}
    (h : run 0 pos (.group start opener expected :: below) (List.replicate k '#' ++ s) = .ok q) :
    pos + k < q := by
  induction k generalizing pos with
  | zero =>
    have := run_bounds h (.inl (Nat.zero_le _))
    simp only [leastRest, Frame.least] at this
    omega
  | succ k ih =>
    rw [List.replicate_succ, List.cons_append] at h
    obtain ⟨move, hm, h⟩ := exists_step_of_run h
    obtain ⟨-, hx⟩ := step_least hm
    have hb := run_bounds h hx
    rw [step, codeStep] at hm
    cases ho : opening? ('#' :: (List.replicate k '#' ++ s)) with
    | none =>
      rw [ho] at hm
      have : move = ⟨0, .group start opener expected :: below⟩ := by
        simpa [bracketStep, closerOf?, isCloser] using hm.symm
      subst this
      have := ih h
      omega
    | some opening =>
      rw [ho] at hm
      cases opening with
      | lineComment => exact absurd (eq_slash_of_opening? ho (by simp)) (by decide)
      | blockComment => exact absurd (eq_slash_of_opening? ho (by simp)) (by decide)
      | string hashes multiline =>
        obtain rfl := Except.ok.inj hm
        have hk := hashes_eq_of_opening? ho
        rw [← List.cons_append, ← List.replicate_succ,
          hashRun_append_full s (by rw [hashRun_replicate, List.length_replicate]),
          List.length_replicate] at hk
        have := quoteCount_pos multiline
        simp only [leastRest, Frame.least] at hb
        omega

lemma run_nil {extra pos : Nat} {t : Text} (h : extra ≤ t.length) :
    run extra pos [] t = .ok (pos + extra) := by
  induction t generalizing extra pos with
  | nil =>
    have : extra = 0 := Nat.le_zero.mp h
    subst this
    rfl
  | cons c t ih =>
    cases extra with
    | zero => rfl
    | succ extra =>
      rw [run, ih (by simpa using h)]
      congr 1
      omega

theorem run_append {extra pos q : Nat} {stack : List Frame} {u s : Text} (s' : Text)
    (h : run extra pos stack (u ++ s) = .ok q) (hq : q ≤ pos + u.length) (hs : stack ≠ []) :
    run extra pos stack (u ++ s') = .ok q := by
  induction u generalizing extra pos stack with
  | nil =>
    have := run_bounds h (.inr hs)
    have := leastRest_pos hs
    simp only [List.length_nil] at hq
    omega
  | cons c u ih =>
    have hb := run_bounds h (.inr hs)
    simp only [List.length_cons] at hq
    cases extra with
    | succ extra =>
      rw [List.cons_append, run] at h ⊢
      exact ih h (by omega) hs
    | zero =>
      cases stack with
      | nil => exact absurd rfl hs
      | cons frame below =>
        rw [List.cons_append] at h ⊢
        obtain ⟨move, hm, hrun⟩ := exists_step_of_run h
        obtain ⟨-, hx⟩ := step_least hm
        have hb' := run_bounds hrun hx
        have room : 1 + move.extra + leastRest move.stack ≤ (c :: u).length := by
          simp only [List.length_cons]
          omega
        have hm' : step pos frame below c (u ++ s') = .ok move := by
          cases frame with
          | string start hashes multiline =>
            refine stringStep_append s' hm ?_ room
            simp only [leastRest, Frame.least, List.length_cons] at hb ⊢
            omega
          | group start opener expected =>
            -- Were the rest all hashes, the group could not end inside it.
            refine codeStep_append s' hm (Nat.lt_of_le_of_ne (hashRun_le _) fun he => ?_) room
            have : run 0 pos (.group start opener expected :: below) (c :: u ++ s) = .ok q :=
              (run_step hm).trans hrun
            rw [eq_replicate_of_hashRun he] at this
            have := lt_of_run_hashes this
            simp only [List.length_cons] at this
            omega
        rw [run_step hm']
        by_cases hn : move.stack = []
        · have he : move.extra ≤ u.length := by
            simp only [hn, leastRest, List.length_cons] at room
            omega
          rw [hn, run_nil (by rw [List.length_append]; omega)] at hrun ⊢
          exact hrun
        · exact ih hrun (by omega) hn

lemma run_skip (pos : Nat) (stack : List Frame) (u s : Text) :
    run u.length pos stack (u ++ s) = run 0 (pos + u.length) stack s := by
  induction u generalizing pos with
  | nil => rfl
  | cons c u ih =>
    rw [List.length_cons, List.cons_append, run, ih]
    congr 1
    omega

lemma bracketStep_below (pos start : Nat) (opener : Char) (expected : List Char)
    (below more : List Frame) (c : Char) :
    bracketStep pos start opener expected (below ++ more) c =
      (bracketStep pos start opener expected below c).map fun m => ⟨m.extra, m.stack ++ more⟩ := by
  unfold bracketStep
  repeat' split
  all_goals rfl

lemma step_below (pos : Nat) (frame : Frame) (below more : List Frame) (c : Char) (t : Text) :
    step pos frame (below ++ more) c t =
      (step pos frame below c t).map fun m => ⟨m.extra, m.stack ++ more⟩ := by
  cases frame with
  | string start hashes multiline =>
    simp only [step, stringStep]
    repeat' split
    all_goals rfl
  | group start opener expected =>
    simp only [step, codeStep, bracketStep_below]
    repeat' split
    all_goals rfl

/-- Reading on after a stack of frames is done is reading what they stand on. -/
lemma run_below {extra pos q : Nat} {stack : List Frame} {t : Text} (below : List Frame)
    (h : run extra pos stack t = .ok q) (he : extra ≤ t.length ∨ stack ≠ []) :
    run extra pos (stack ++ below) t = run 0 q below (t.drop (q - pos)) := by
  induction t generalizing extra pos stack with
  | nil =>
    cases stack with
    | nil =>
      have h0 : extra = 0 := by simpa using he
      subst h0
      obtain rfl : pos = q := by simpa [run] using h
      simp
    | cons frame rest => cases extra <;> simp [run] at h
  | cons c t ih =>
    cases extra with
    | succ extra =>
      rw [run] at h ⊢
      have hx : extra ≤ t.length ∨ stack ≠ [] := by simpa using he
      have hb := run_bounds h hx
      rw [ih h hx, show q - pos = q - (pos + 1) + 1 by omega, List.drop_succ_cons]
    | zero =>
      cases stack with
      | nil =>
        obtain rfl : pos = q := by simpa [run] using h
        simp
      | cons frame rest =>
        obtain ⟨move, hm, hrun⟩ := exists_step_of_run h
        obtain ⟨-, hx⟩ := step_least hm
        have hb := run_bounds hrun hx
        have hm' : step pos frame (rest ++ below) c t = .ok ⟨move.extra, move.stack ++ below⟩ := by
          rw [step_below, hm]
          rfl
        rw [List.cons_append, run_step hm', ih hrun hx, show q - pos = q - (pos + 1) + 1 by omega,
          List.drop_succ_cons]

lemma run_below_error {extra pos : Nat} {stack : List Frame} {t : Text} {e : ScanError} (below : List Frame)
    (h : run extra pos stack t = .error e) : run extra pos (stack ++ below) t = .error e := by
  induction t generalizing extra pos stack with
  | nil => cases stack <;> cases extra <;> first | exact h | simp [run] at h
  | cons c t ih =>
    cases extra with
    | succ extra =>
      rw [run] at h ⊢
      exact ih h
    | zero =>
      cases stack with
      | nil => simp [run] at h
      | cons frame rest =>
        rw [run] at h
        rw [List.cons_append, run, step_below]
        cases hm : step pos frame rest c t with
        | error e' =>
          rw [hm] at h
          exact h
        | ok move =>
          rw [hm] at h
          exact ih h

/-- A stack of frames that stands on others is done with first, and what is read then is read for the others. -/
theorem run_stack {extra pos : Nat} {stack : List Frame} {t : Text} (below : List Frame) (hs : stack ≠ []) :
    run extra pos (stack ++ below) t =
      (run extra pos stack t).bind fun q => run 0 q below (t.drop (q - pos)) := by
  cases h : run extra pos stack t with
  | error e => exact run_below_error below h
  | ok q => exact run_below below h (.inr hs)

lemma run_drop (extra pos : Nat) (frame : Frame) (below : List Frame) (t : Text) :
    run extra pos (frame :: below) t = run 0 (pos + extra) (frame :: below) (t.drop extra) := by
  induction extra generalizing pos t with
  | zero => rfl
  | succ extra ih =>
    cases t with
    | nil => rfl
    | cons c t =>
      rw [run, ih, List.drop_succ_cons]
      congr 1
      omega

def Frame.moved (d : Nat) : Frame → Frame
  | .string start hashes multiline => .string (d + start) hashes multiline
  | .group start opener expected => .group (d + start) opener expected

def Move.moved (d : Nat) (move : Move) : Move := ⟨move.extra, move.stack.map (·.moved d)⟩

lemma bracketStep_moved (d pos start : Nat) (opener : Char) (expected : List Char)
    (below : List Frame) (c : Char) :
    bracketStep (d + pos) (d + start) opener expected (below.map (·.moved d)) c =
      Scan.from d ((bracketStep pos start opener expected below c).map (·.moved d)) := by
  unfold bracketStep
  cases closerOf? c with
  | some closer => rfl
  | none =>
    cases isCloser c with
    | false => rfl
    | true =>
      cases expected with
      | nil => rfl
      | cons closer rest =>
        simp only [if_true]
        split_ifs <;> rfl

lemma step_moved (d pos : Nat) (frame : Frame) (below : List Frame) (c : Char) (t : Text) :
    step (d + pos) (frame.moved d) (below.map (·.moved d)) c t =
      Scan.from d ((step pos frame below c t).map (·.moved d)) := by
  cases frame with
  | string start hashes multiline =>
    simp only [step, stringStep, Frame.moved]
    split_ifs
    · split <;> simp [Scan.from, Except.map, Except.mapError, Move.moved, Frame.moved, Nat.add_assoc]
    · rfl
    · rfl
    · rfl
  | group start opener expected =>
    simp only [step, codeStep, Frame.moved]
    cases opening? (c :: t) with
    | none => exact bracketStep_moved d pos start opener expected below c
    | some opening =>
      cases opening with
      | lineComment => rfl
      | blockComment => cases blockCommentLength? 0 (c :: t) <;> rfl
      | string hashes multiline => rfl

/-- Where a text begins further on, a scan finds the same there. -/
lemma run_moved (d extra pos : Nat) (stack : List Frame) (t : Text) :
    run extra (d + pos) (stack.map (·.moved d)) t =
      Scan.from d ((run extra pos stack t).map (d + ·)) := by
  induction t generalizing extra pos stack with
  | nil =>
    cases stack with
    | nil => cases extra <;> rfl
    | cons frame below => cases extra <;> cases frame <;> rfl
  | cons c t ih =>
    cases extra with
    | succ extra =>
      rw [run, run]
      exact ih extra (pos + 1) stack
    | zero =>
      cases stack with
      | nil => rfl
      | cons frame below =>
        rw [List.map_cons, run, run, step_moved]
        cases step pos frame below c t with
        | error e => rfl
        | ok move => exact ih move.extra (pos + 1) move.stack

/-- In code, a literal that begins is read whole, whatever it holds, and all else one character after the other. -/
theorem run_code (pos start : Nat) (opener : Char) (expected : List Char) (below : List Frame) (c : Char) (t : Text) :
    run 0 pos (.group start opener expected :: below) (c :: t) =
      (Scan.from pos (literalLength? (c :: t))).bind fun found => found.elim
        ((bracketStep pos start opener expected below c).bind fun move => run move.extra (pos + 1) move.stack t)
        fun n => run 0 (pos + n) (.group start opener expected :: below) ((c :: t).drop n) := by
  have onward : ∀ n, 1 ≤ n → run (n - 1) (pos + 1) (.group start opener expected :: below) t =
      run 0 (pos + n) (.group start opener expected :: below) ((c :: t).drop n) := by
    intro n hn
    obtain ⟨m, rfl⟩ : ∃ m, n = m + 1 := ⟨n - 1, by omega⟩
    rw [Nat.add_sub_cancel, run_drop, List.drop_succ_cons, Nat.add_right_comm, Nat.add_assoc]
  rw [run, step, codeStep, literalLength?]
  cases ho : opening? (c :: t) with
  | none => cases bracketStep pos start opener expected below c <;> rfl
  | some opening =>
    cases opening with
    | lineComment =>
      obtain rfl := eq_slash_of_opening? ho (by simp)
      exact onward _ (by simp [lineCommentLength])
    | blockComment =>
      cases hn : blockCommentLength? 0 (c :: t) with
      | none => rfl
      | some n => exact onward n (Nat.le_of_succ_le (blockCommentLength?_bounds hn).1)
    | string hashes multiline =>
      have hq := quoteCount_pos multiline
      obtain ⟨k, hk⟩ : ∃ k, hashes + quoteCount multiline = k + 1 := ⟨hashes + quoteCount multiline - 1, by omega⟩
      -- the string is read as if its text began with it
      have halone : run k (pos + 1) [.string pos hashes multiline] t =
          Scan.from pos ((run (k + 1) 0 [.string 0 hashes multiline] (c :: t)).map (pos + ·)) :=
        run_moved pos (k + 1) 0 [.string 0 hashes multiline] (c :: t)
      have hstack := @run_stack k (pos + 1) [.string pos hashes multiline] t
        (.group start opener expected :: below) (List.cons_ne_nil _ _)
      rw [halone] at hstack
      simp only [hk, Nat.add_sub_cancel]
      rw [show Frame.string pos hashes multiline :: .group start opener expected :: below =
        [.string pos hashes multiline] ++ .group start opener expected :: below from rfl, hstack]
      cases hr : run (k + 1) 0 [.string 0 hashes multiline] (c :: t) with
      | error e => rfl
      | ok n =>
        have hn := (run_bounds hr (.inr (List.cons_ne_nil _ _))).1
        obtain ⟨m, rfl⟩ : ∃ m, n = m + 1 := ⟨n - 1, by omega⟩
        have hm : pos + (m + 1) - (pos + 1) = m := by omega
        simp only [Scan.from, Except.map, Except.mapError, Except.bind, Option.elim, hm, List.drop_succ_cons]

end PackageInstaller.Manifest
