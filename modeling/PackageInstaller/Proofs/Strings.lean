import PackageInstaller.Manifest.StringLiteral
import PackageInstaller.Proofs.WellFormed

/-! Quoted strings: what is written as one is scanned as one piece and read back, unless it spreads over
lines, and what can be read back is a single piece. -/

namespace PackageInstaller.Manifest

/-- The value of pieces that are one quoted string. -/
def stringOf : List Piece → Option Text
  | [.literal l] => StringLiteral.decode? l
  | _ => none

lemma encode_eq (v : Text) :
    StringLiteral.encode v = stringLiteral 0 false (v.flatMap StringLiteral.encodeChar) := by
  simp [StringLiteral.encode, stringLiteral, quoteCount, closingMark]

lemma encodeChar_head (c : Char) : ∃ d r, StringLiteral.encodeChar c = d :: r ∧ d ≠ '"' := by
  unfold StringLiteral.encodeChar
  split_ifs with hc
  · exact ⟨'\\', [c], rfl, by decide⟩
  · exact ⟨c, [], rfl, fun hq => hc (.inr hq)⟩

lemma encode_head (v : Text) : (v.flatMap StringLiteral.encodeChar).head? ≠ some '"' := by
  cases v with
  | nil => simp
  | cons c v =>
    obtain ⟨d, r, hc, hd⟩ := encodeChar_head c
    simpa [hc] using hd

lemma encode_eq_empty {v : Text} (h : stringLiteral 0 false (v.flatMap StringLiteral.encodeChar) = ['"', '"']) :
    v = [] := by
  cases v with
  | nil => rfl
  | cons c v =>
    obtain ⟨d, r, hc, -⟩ := encodeChar_head c
    simp [stringLiteral, quoteCount, closingMark, hc] at h

lemma encode_opening {v z : Text} (h : v = [] → z.head? ≠ some '"') :
    opening? (StringLiteral.encode v ++ z) = some (.string 0 false) := by
  rw [encode_eq]
  exact opening?_stringLiteral (encode_head v) fun he => h (encode_eq_empty he)

lemma run_encodeChar {c : Char} (hc : c ≠ '\n') (pos start : Nat) (t : Text) :
    run 0 pos [.string start 0 false] (StringLiteral.encodeChar c ++ t) =
      run 0 (pos + (StringLiteral.encodeChar c).length) [.string start 0 false] t := by
  unfold StringLiteral.encodeChar
  split_ifs with h
  · have hp : c ≠ '(' := by rcases h with rfl | rfl <;> decide
    exact run_escape hp pos start t
  · rw [not_or] at h
    exact run_string (stringStep_char pos start 0 false [] t h.2 h.1 fun hn => absurd hn hc)

lemma derives_encode {v : Text} (h : '\n' ∉ v) :
    (Phrase.string 0 false).Derives (v.flatMap StringLiteral.encodeChar) := by
  induction v with
  | nil => exact .stringEnd
  | cons c v ih =>
    rw [List.mem_cons, not_or] at h
    rw [List.flatMap_cons, StringLiteral.encodeChar]
    split_ifs with hc
    · have hp : c ≠ '(' := by rcases hc with rfl | rfl <;> decide
      exact .escape hp (ih h.2)
    · rw [not_or] at hc
      exact .stringChar hc.2 hc.1 (fun hn => absurd hn.symm h.1) (ih h.2)

lemma stringStep_newline (pos start : Nat) (below : List Frame) (t : Text) :
    stringStep pos start 0 false below ('\n' :: t) = .error (.unterminatedString start) := by
  simp [stringStep, escapeMark, closingMark, quoteCount, List.isPrefixOf]

lemma run_encode_newline {v : Text} (h : '\n' ∈ v) (pos start : Nat) (z : Text) :
    run 0 pos [.string start 0 false] (v.flatMap StringLiteral.encodeChar ++ z) =
      .error (.unterminatedString start) := by
  induction v generalizing pos with
  | nil => simp at h
  | cons c v ih =>
    rw [List.flatMap_cons, List.append_assoc]
    by_cases hc : c = '\n'
    · subst hc
      have hs : step pos (.string start 0 false) [] '\n' (v.flatMap StringLiteral.encodeChar ++ z) =
          .error (.unterminatedString start) :=
        stringStep_newline pos start [] (v.flatMap StringLiteral.encodeChar ++ z)
      rw [show StringLiteral.encodeChar '\n' = ['\n'] by decide, List.cons_append, List.nil_append,
        run, hs]
    · rw [run_encodeChar hc, ih ((List.mem_cons.mp h).resolve_left (Ne.symm hc))]

/-- What is written for a value of one line is one literal to the scanner. -/
theorem literalLength?_encode {v z : Text} (h : '\n' ∉ v) (hz : v = [] → z.head? ≠ some '"') :
    literalLength? (StringLiteral.encode v ++ z) = .ok (some (StringLiteral.encode v).length) := by
  rw [encode_eq]
  exact literalLength?_stringLiteral (derives_encode h).scanned fun he => hz (encode_eq_empty he)

theorem literalLength?_encode_newline {v z : Text} (h : '\n' ∈ v) :
    literalLength? (StringLiteral.encode v ++ z) = .error (.unterminatedString 0) := by
  have ho := encode_opening (v := v) (z := z) fun hv => by simp [hv] at h
  have he : StringLiteral.encode v ++ z = '"' :: (v.flatMap StringLiteral.encodeChar ++ '"' :: z) := by
    simp [StringLiteral.encode]
  rw [literalLength?, ho]
  simp only
  rw [he]
  change (run 0 1 [.string 0 0 false] _).map _ = _
  rw [run_encode_newline h]
  rfl

lemma decodeBody?_cons {c : Char} {t : Text} (h₁ : c ≠ '\\') (h₂ : c ≠ '"') (h₃ : c ≠ '\n') :
    StringLiteral.decodeBody? (c :: t) = (StringLiteral.decodeBody? t).map (c :: ·) := by
  rw [StringLiteral.decodeBody?]
  · simp [h₁, h₂, h₃]
  · rintro d t' rfl
    exact absurd rfl h₁
  · rintro rfl
    exact absurd rfl h₂

theorem decode?_encode {v : Text} (h : '\n' ∉ v) :
    StringLiteral.decode? (StringLiteral.encode v) = some v := by
  have key : StringLiteral.decodeBody? (v.flatMap StringLiteral.encodeChar ++ ['"']) = some v := by
    induction v with
    | nil => rfl
    | cons c v ih =>
      rw [List.mem_cons, not_or] at h
      have ih := ih h.2
      rw [List.flatMap_cons, List.append_assoc, StringLiteral.encodeChar]
      split_ifs with hc
      · rw [List.cons_append, List.cons_append, List.nil_append, StringLiteral.decodeBody?,
          if_neg (Ne.symm h.1), ih]
        rfl
      · rw [not_or] at hc
        rw [List.cons_append, List.nil_append, decodeBody?_cons hc.1 hc.2 (Ne.symm h.1), ih]
        rfl
  exact key

lemma exists_run_of_below {extra pos q : Nat} {stack below : List Frame} {t : Text}
    (h : run extra pos (stack ++ below) t = .ok q) : ∃ q', run extra pos stack t = .ok q' := by
  cases hr : run extra pos stack t with
  | ok q' => exact ⟨q', rfl⟩
  | error e => simp [run_below_error below hr] at h

lemma step_bottom {pos start : Nat} {opener : Char} {expected : List Char} {frame : Frame}
    {below : List Frame} {c : Char} {t : Text} {move : Move}
    (h : step pos frame below c t = .ok move)
    (hb : (frame :: below).getLast? = some (.group start opener expected)) :
    (move.stack = [] ∧ move.extra = 0 ∧ isCloser c = true) ∨
      ∃ expected', move.stack.getLast? = some (.group start opener expected') := by
  rcases List.eq_nil_or_concat' below with rfl | ⟨rest, g, rfl⟩
  · obtain rfl : frame = .group start opener expected := by simpa using hb
    simp only [step, codeStep] at h
    split at h
    · obtain rfl := Except.ok.inj h
      exact .inr ⟨expected, rfl⟩
    · split at h
      · obtain rfl := Except.ok.inj h
        exact .inr ⟨expected, rfl⟩
      · simp at h
    · obtain rfl := Except.ok.inj h
      exact .inr ⟨expected, rfl⟩
    · obtain ⟨he, ⟨e, hs⟩ | ⟨hc, -, hs⟩⟩ := bracketStep_cases h
      · exact .inr ⟨e, by rw [hs]; rfl⟩
      · exact .inl ⟨hs, he, hc⟩
  · rw [step_below] at h
    obtain ⟨m, -, rfl⟩ := map_eq_ok.mp h
    refine .inr ⟨expected, ?_⟩
    rw [← List.cons_append, List.getLast?_concat] at hb
    rw [List.getLast?_concat, hb]

lemma run_group_end {extra pos q start : Nat} {opener : Char} {expected : List Char}
    {stack : List Frame} {t : Text} (h : run extra pos stack t = .ok q)
    (hb : stack.getLast? = some (.group start opener expected)) :
    ∃ u c v, t = u ++ c :: v ∧ isCloser c = true ∧ q = pos + u.length + 1 := by
  induction t generalizing extra pos stack expected with
  | nil =>
    cases stack with
    | nil => simp at hb
    | cons frame below => cases extra <;> simp [run] at h
  | cons c t ih =>
    have onward : ∀ {extra : Nat} {stack : List Frame} {expected : List Char},
        run extra (pos + 1) stack t = .ok q → stack.getLast? = some (.group start opener expected) →
          ∃ u d v, c :: t = u ++ d :: v ∧ isCloser d = true ∧ q = pos + u.length + 1 := by
      intro extra stack expected hrun hlast
      obtain ⟨u, d, v, rfl, hd, rfl⟩ := ih hrun hlast
      refine ⟨c :: u, d, v, rfl, hd, ?_⟩
      simp only [List.length_cons]
      omega
    cases extra with
    | succ extra => exact onward (by rwa [run] at h) hb
    | zero =>
      cases stack with
      | nil => simp at hb
      | cons frame below =>
        obtain ⟨move, hm, hrun⟩ := exists_step_of_run h
        rcases step_bottom hm hb with ⟨hs, he, hc⟩ | ⟨e, he⟩
        · rw [hs, he] at hrun
          have hend : run 0 (pos + 1) [] t = .ok (pos + 1) := by cases t <;> rfl
          obtain rfl := Except.ok.inj (hend.symm.trans hrun)
          exact ⟨[], c, t, rfl, hc, rfl⟩
        · exact onward hrun he

lemma decodeBody?_plain {c : Char} {t s : Text} (hc : c ≠ '\\') (ht : t ≠ [])
    (h : StringLiteral.decodeBody? (c :: t) = some s) :
    c ≠ '"' ∧ c ≠ '\n' ∧ ∃ s', StringLiteral.decodeBody? t = some s' := by
  obtain ⟨d, t, rfl⟩ := List.exists_cons_of_ne_nil ht
  have hq : c ≠ '"' ∧ c ≠ '\n' := by
    rw [StringLiteral.decodeBody?] at h
    · split_ifs at h with he
      simp only [not_or] at he
      exact ⟨he.1, he.2.2⟩
    · rintro _ _ rfl
      exact absurd rfl hc
    · simp
  rw [decodeBody?_cons hc hq.1 hq.2, Option.map_eq_some_iff] at h
  exact ⟨hq.1, hq.2, h.imp fun s' hs' => hs'.1⟩

lemma decodeBody?_escaped {c : Char} {t s : Text} (h : StringLiteral.decodeBody? ('\\' :: c :: t) = some s) :
    ∃ s', StringLiteral.decodeBody? t = some s' := by
  rw [StringLiteral.decodeBody?] at h
  split_ifs at h
  exact (Option.map_eq_some_iff.mp h).imp fun s' hs' => hs'.1

namespace StringLiteral

/-- What the scanner passes between two quotes. Of an interpolation only its end is told. -/
inductive Body : Text → Prop
  | nil : Body []
  | char {c : Char} {b : Text} : c ≠ '"' → c ≠ '\\' → c ≠ '\n' → Body b → Body (c :: b)
  | escape {c : Char} {b : Text} : c ≠ '(' → Body b → Body ('\\' :: c :: b)
  | interpolation {u b : Text} {c : Char} : isCloser c = true → Body b → Body ('\\' :: '(' :: (u ++ c :: b))

/-- Each backslash stands before a character, or behind another backslash that it belongs to. -/
inductive Paired : Text → Prop
  | nil : Paired []
  | plain {c : Char} {b : Text} : c ≠ '\\' → Paired b → Paired (c :: b)
  | pair {c : Char} {b : Text} : Paired b → Paired ('\\' :: c :: b)

variable {b s t : Text} {c : Char}

lemma Paired.append (hs : Paired s) (ht : Paired t) : Paired (s ++ t) := by
  induction hs with
  | nil => exact ht
  | plain hc _ ih => exact .plain hc ih
  | pair _ ih => exact .pair ih

lemma Paired.concat (hc : c ≠ '\\') (s : Text) : Paired (s ++ [c]) := by
  induction h : s.length using Nat.strongRecOn generalizing s with
  | ind n ih =>
    match s with
    | [] => exact .plain hc .nil
    | [d] =>
      by_cases hd : d = '\\'
      · subst hd
        exact .pair .nil
      · exact .plain hd (.plain hc .nil)
    | d :: d' :: s =>
      rw [List.length_cons, List.length_cons] at h
      by_cases hd : d = '\\'
      · subst hd
        exact .pair (ih s.length (by omega) s rfl)
      · exact .plain hd (ih (d' :: s).length (by rw [List.length_cons]; omega) (d' :: s) rfl)

lemma Body.paired (h : Body b) : Paired b := by
  induction h with
  | nil => exact .nil
  | char _ hc _ _ ih => exact .plain hc ih
  | escape _ _ ih => exact .pair ih
  | @interpolation u b c hc _ ih =>
    -- an interpolation ends in a closer and no backslash, so the pairs behind it are in phase again
    have hclose : c ≠ '\\' := by
      rintro rfl
      simp [isCloser] at hc
    rw [List.append_cons]
    exact .pair ((Paired.concat hclose u).append ih)

lemma Paired.decodeBody?_append (hb : Paired b) (ht : t ≠ []) (h : StringLiteral.decodeBody? (b ++ t) = some s) :
    ∃ s', StringLiteral.decodeBody? t = some s' := by
  induction hb generalizing s with
  | nil => exact ⟨s, h⟩
  | plain hc _ ih =>
    obtain ⟨-, -, s', hs'⟩ := decodeBody?_plain hc (by simp [ht]) h
    exact ih hs'
  | pair _ ih =>
    obtain ⟨s', hs'⟩ := decodeBody?_escaped h
    exact ih hs'

end StringLiteral

lemma exists_group_end {pos q start : Nat} {opener : Char} {expected : List Char} {below : List Frame} {t : Text}
    (h : run 0 pos (.group start opener expected :: below) t = .ok q) :
    ∃ u c v, t = u ++ c :: v ∧ isCloser c = true ∧ run 0 (pos + u.length + 1) below v = .ok q := by
  obtain ⟨q', hq'⟩ := @exists_run_of_below _ _ _ [.group start opener expected] below _ h
  obtain ⟨u, c, v, rfl, hc, rfl⟩ := run_group_end hq' rfl
  have hb := run_below below hq' (.inr (by simp))
  rw [List.singleton_append, h, show pos + u.length + 1 - pos = u.length + 1 by omega, ← List.drop_drop,
    List.drop_left] at hb
  exact ⟨u, c, v, rfl, hc, hb.symm⟩

lemma exists_body_of_run {pos start q : Nat} {t : Text} (h : run 0 pos [.string start 0 false] t = .ok q) :
    ∃ b z, t = b ++ '"' :: z ∧ q = pos + b.length + 1 ∧ StringLiteral.Body b := by
  induction hk : t.length using Nat.strongRecOn generalizing t pos with
  | ind n ih =>
    cases t with
    | nil => simp [run] at h
    | cons c t =>
      rw [List.length_cons] at hk
      by_cases hquote : c = '"'
      · subst hquote
        have hend : run 0 pos [.string start 0 false] ('"' :: t) = .ok (pos + 1) := run_closingMark 0 false pos start t
        obtain rfl := Except.ok.inj (hend.symm.trans h)
        exact ⟨[], t, rfl, rfl, .nil⟩
      by_cases hline : c = '\n'
      · subst hline
        obtain ⟨move, hm, -⟩ := exists_step_of_run h
        rw [step, stringStep_newline] at hm
        simp at hm
      by_cases hmark : c = '\\'
      · subst hmark
        cases t with
        | nil => simp [run, step, stringStep, escapeMark, List.isPrefixOf] at h
        | cons d t =>
          rw [List.length_cons] at hk
          by_cases hparen : d = '('
          · subst hparen
            have hstep : stringStep pos start 0 false [] ('\\' :: '(' :: t) =
                .ok ⟨1, [.group (pos + 1) '(' [')'], .string start 0 false]⟩ :=
              stringStep_escapeMark pos start 0 false [] t '('
            rw [run_string hstep, run] at h
            obtain ⟨u, c, v, rfl, hc, hrun⟩ := exists_group_end h
            rw [List.length_append, List.length_cons] at hk
            obtain ⟨b, z, rfl, rfl, hb⟩ := ih v.length (by omega) hrun rfl
            refine ⟨'\\' :: '(' :: (u ++ c :: b), z, by simp, ?_, .interpolation hc hb⟩
            simp only [List.length_cons, List.length_append]
            omega
          · have hskip : run 0 pos [.string start 0 false] ('\\' :: d :: t) =
                run 0 (pos + 2) [.string start 0 false] t := run_escape hparen pos start t
            rw [hskip] at h
            obtain ⟨b, z, rfl, rfl, hb⟩ := ih t.length (by omega) h rfl
            refine ⟨'\\' :: d :: b, z, rfl, ?_, .escape hparen hb⟩
            simp only [List.length_cons]
            omega
      · have hstep := stringStep_char pos start 0 false [] t hquote hmark fun hn => absurd hn hline
        rw [run_string hstep] at h
        obtain ⟨b, z, rfl, rfl, hb⟩ := ih t.length (by omega) h rfl
        exact ⟨c :: b, z, rfl, by rw [List.length_cons]; omega, .char hquote hmark hline hb⟩

/-- No string ends inside a body: one that goes on behind the closing quote is not read. -/
lemma body_length_le {body z s : Text} {pos q start : Nat}
    (h : StringLiteral.decodeBody? body = some s)
    (hr : run 0 pos [.string start 0 false] (body ++ z) = .ok q) : pos + body.length ≤ q := by
  obtain ⟨b, w, htext, rfl, hb⟩ := exists_body_of_run hr
  by_contra hlong
  obtain ⟨m, rfl, hm⟩ : ∃ m, body = b ++ '"' :: m ∧ m ≠ [] := by
    rcases append_eq_append_cons htext with ⟨m, rfl, -⟩ | ⟨m, rfl, -⟩
    · rw [List.length_append] at hlong
      omega
    · refine ⟨m, rfl, ?_⟩
      rintro rfl
      rw [List.length_append, List.length_singleton] at hlong
      omega
  obtain ⟨s', hs'⟩ := hb.paired.decodeBody?_append (List.cons_ne_nil _ _) h
  exact absurd rfl (decodeBody?_plain (by decide) hm hs').1

lemma opening?_cons_quote (t : Text) :
    opening? ('"' :: t) = some (.string 0 (['"', '"', '"'].isPrefixOf ('"' :: t))) := by
  rw [opening?_of_ne _ (by decide), stringOpening?_eq]
  simp [hashRun]

/-- A string that can be read back opens with a single quote, for its body does not begin with two more. -/
lemma opening?_of_body {l t z s : Text} (hl : literalLength? ('"' :: (l ++ t ++ z)) = .ok (some (l.length + 1)))
    (hs : StringLiteral.decodeBody? (l ++ t) = some s) :
    opening? ('"' :: (l ++ t ++ z)) = some (.string 0 false) := by
  have ho := opening?_cons_quote (l ++ t ++ z)
  cases hm : ['"', '"', '"'].isPrefixOf ('"' :: (l ++ t ++ z)) with
  | false => rw [ho, hm]
  | true =>
    have hr := (literalLength?_string (by rw [ho, hm])).mp hl
    have hrb := run_bounds hr (.inr (by simp))
    simp only [leastRest, Frame.least, quoteCount, if_true] at hrb
    obtain ⟨d, e, l, rfl⟩ : ∃ d e l', l = d :: e :: l' := by
      rcases l with _ | ⟨d, _ | ⟨e, l⟩⟩
      · simp at hrb
      · simp at hrb
      · exact ⟨d, e, l, rfl⟩
    simp only [List.cons_append, List.isPrefixOf, beq_self_eq_true, Bool.true_and, Bool.and_true,
      Bool.and_eq_true, beq_iff_eq] at hm
    rw [← hm.1, ← hm.2, List.cons_append, StringLiteral.decodeBody?] at hs
    · simp at hs
    · simp
    · simp

/-- What is read as one quoted string is one piece. -/
theorem decode?_textOf {v z : List Piece} (h : Lexed (v ++ z)) :
    StringLiteral.decode? (textOf v) = stringOf v := by
  by_cases hv : ∃ l, v = [.literal l]
  · obtain ⟨l, rfl⟩ := hv
    simp [stringOf, Piece.text]
  · have hn : stringOf v = none := by
      unfold stringOf
      split
      · exact absurd ⟨_, rfl⟩ hv
      · rfl
    rw [hn, ← Option.not_isSome_iff_eq_none, Option.isSome_iff_exists]
    rintro ⟨s, hs⟩
    cases v with
    | nil => simp [StringLiteral.decode?] at hs
    | cons p v =>
      change Lexed (p :: (v ++ z)) at h
      cases p with
      | char c =>
        have hc := literalLength?_eq_none.mp h.char_head
        obtain rfl : c = '"' := by
          by_contra hq
          simp [textOf_cons, Piece.text, StringLiteral.decode?, hq] at hs
        rw [opening?_of_ne _ (by decide), stringOpening?_eq] at hc
        simp [hashRun] at hc
      | literal l =>
        have hl := h.literal_head
        have hb := literalLength?_bounds hl
        obtain ⟨c, l, rfl⟩ : ∃ c l', l = c :: l' := List.exists_cons_of_length_pos (by omega)
        have ht : textOf (.literal (c :: l) :: v) = c :: (l ++ textOf v) := rfl
        rw [ht] at hs
        obtain rfl : c = '"' := by
          by_contra hq
          simp [StringLiteral.decode?, hq] at hs
        rw [StringLiteral.decode?] at hs
        have htext : '"' :: l ++ textOf (v ++ z) = '"' :: (l ++ textOf v ++ textOf z) := by simp
        have ho := opening?_of_body (htext ▸ hl) hs
        have hr := (literalLength?_string ho).mp (htext ▸ hl)
        change run 0 1 [.string 0 0 false] _ = _ at hr
        have hle := body_length_le hs hr
        simp only [List.length_append, List.length_cons] at hle
        have hv0 : textOf v = [] := List.length_eq_zero_iff.mp (by omega)
        cases v with
        | nil => exact hv ⟨_, rfl⟩
        | cons q v => exact h.tail.text_ne_nil (by simpa using (List.append_eq_nil_iff.mp hv0).1)

end PackageInstaller.Manifest
