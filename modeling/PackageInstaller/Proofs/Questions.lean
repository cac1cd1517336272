import Mathlib.Data.List.Basic
import PackageInstaller.Selection

/-! Asking for targets: which question comes when, which replies are used, and which targets are accepted, all told by
the clear answers among the replies. -/

namespace PackageInstaller.Selection

/-- The clear answers among the replies, in their order. -/
def decisions (replies : List Text) : List Answer := (replies.map Answer.ofText).filter (· ≠ .unclear)

/-- Nothing is left to ask: there is a wish to stop, or an answer for each target. -/
def Settled (targets replies : List Text) : Prop :=
  .quit ∈ decisions replies ∨ targets.length ≤ (decisions replies).length

/-- The first target that the replies leave without an answer. -/
def undecided? (targets replies : List Text) : Option Text := targets[(decisions replies).length]?

/-- The targets whose answer is yes, each answer being for the target at its own place. -/
def chosen (targets : List Text) (answers : List Answer) : List Text :=
  ((targets.zip answers).filter fun decided => decided.2 = .yes).map (·.1)

/-- One turn: the question about the target that is undecided by then, the reply if one comes, and the help if the
reply is unclear. -/
def turn (targets replies : List Text) (j : Nat) : List Remark :=
  ((undecided? targets (replies.take j)).map .question).toList ++
    replies[j]?.toList.flatMap fun reply => .reply reply :: if Answer.ofText reply = .unclear then [.help] else []

/-- The number of questions: one for each reply used, and one more that no reply comes to. -/
def Inquiry.questions (i : Inquiry) : Nat := if i.accepted = none then i.used + 1 else i.used

/-- The inquiry goes by the clear answers: it stops as soon as they settle everything. -/
structure Answered (targets replies : List Text) (i : Inquiry) : Prop where
  used_le : i.used ≤ replies.length
  unsettled : ∀ m < i.used, ¬Settled targets (replies.take m)
  settled_iff : (∃ accepted, i.accepted = some accepted) ↔ Settled targets (replies.take i.used)
  exhausted : i.accepted = none → i.used = replies.length
  accepted_eq : ∀ accepted, i.accepted = some accepted → accepted = chosen targets (decisions (replies.take i.used))
  dialogue_eq : i.dialogue = (List.range i.questions).flatMap (turn targets replies)
  count_help : i.dialogue.count .help = (replies.take i.used).countP fun reply => Answer.ofText reply = .unclear

variable {targets targets' rest replies rs : List Text} {target reply : Text} {i : Inquiry} {said : List Remark}
  {accepted : List Text}

lemma ofText_eq_yes : Answer.ofText reply = .yes ↔ Text.lower (Text.strip reply) = ['y'] := by
  unfold Answer.ofText
  split <;> simp_all

lemma ofText_eq_no : Answer.ofText reply = .no ↔ Text.lower (Text.strip reply) = ['n'] := by
  unfold Answer.ofText
  split <;> simp_all

lemma ofText_eq_quit : Answer.ofText reply = .quit ↔ Text.lower (Text.strip reply) = ['q'] := by
  unfold Answer.ofText
  split <;> simp_all

lemma decisions_cons (h : Answer.ofText reply ≠ .unclear) (rs : List Text) :
    decisions (reply :: rs) = Answer.ofText reply :: decisions rs := by
  simp [decisions, h]

lemma decisions_unclear (h : Answer.ofText reply = .unclear) (rs : List Text) :
    decisions (reply :: rs) = decisions rs := by
  simp [decisions, h]

lemma exists_undecided (h : ¬Settled targets rs) : ∃ target, undecided? targets rs = some target := by
  rw [Settled, not_or, Nat.not_le] at h
  exact ⟨_, List.getElem?_eq_getElem h.2⟩

lemma not_settled_nil : ¬Settled (target :: rest) [] := by simp [Settled, decisions]

lemma turn_succ (h : ∀ rs, undecided? targets (reply :: rs) = undecided? targets' rs) (j : Nat) :
    turn targets (reply :: replies) (j + 1) = turn targets' replies j := by
  rw [turn, turn, List.take_succ_cons, h, List.getElem?_cons_succ]

lemma turn_zero (target : Text) (rest : List Text) (reply : Text) (replies : List Text) :
    turn (target :: rest) (reply :: replies) 0 =
      .question target :: .reply reply :: if Answer.ofText reply = .unclear then [.help] else [] := by
  simp [turn, undecided?, decisions]

lemma questions_after : (i.after said accepted).questions = i.questions + 1 := by
  unfold Inquiry.questions Inquiry.after
  cases i.accepted <;> simp

/-- An inquiry that goes on after a reply, with the targets that this reply leaves. -/
lemma Answered.after (h : Answered targets' replies i) (hnil : ¬Settled targets [])
    (hsettled : ∀ rs, Settled targets (reply :: rs) ↔ Settled targets' rs)
    (hundecided : ∀ rs, undecided? targets (reply :: rs) = undecided? targets' rs)
    (hchosen : ∀ rs, chosen targets (decisions (reply :: rs)) = accepted ++ chosen targets' (decisions rs))
    (hsaid : turn targets (reply :: replies) 0 = said)
    (hhelp : said.count .help = if Answer.ofText reply = .unclear then 1 else 0) :
    Answered targets (reply :: replies) (i.after said accepted) where
  used_le := Nat.succ_le_succ h.used_le
  unsettled m hm := by
    cases m with
    | zero => exact hnil
    | succ m =>
      rw [List.take_succ_cons, hsettled]
      exact h.unsettled m (Nat.lt_of_succ_lt_succ hm)
  settled_iff := by
    have hused : (i.after said accepted).used = i.used + 1 := rfl
    rw [hused, List.take_succ_cons, hsettled, ← h.settled_iff]
    simp [Inquiry.after]
  exhausted hnone := by
    have hi : i.accepted = none := Option.map_eq_none_iff.mp hnone
    exact congrArg (· + 1) (h.exhausted hi)
  accepted_eq all hall := by
    obtain ⟨later, hlater, rfl⟩ := Option.map_eq_some_iff.mp hall
    have hused : (i.after said accepted).used = i.used + 1 := rfl
    rw [hused, List.take_succ_cons, hchosen, ← h.accepted_eq later hlater]
  dialogue_eq := by
    have hturns : (fun j => turn targets (reply :: replies) j.succ) = turn targets' replies :=
      funext (turn_succ hundecided)
    rw [questions_after, List.range_succ_eq_map, List.flatMap_cons, List.flatMap_map, hsaid, hturns, ← h.dialogue_eq]
    rfl
  count_help := by
    change (said ++ i.dialogue).count .help = ((reply :: replies).take (i.used + 1)).countP _
    rw [List.count_append, hhelp, h.count_help, List.take_succ_cons, List.countP_cons, Nat.add_comm]
    simp

lemma Answered.decided (h : Answered rest replies i) (target reply : Text) (hclear : Answer.ofText reply ≠ .unclear)
    (hquit : Answer.ofText reply ≠ .quit) : Answered (target :: rest) (reply :: replies)
      (i.after [.question target, .reply reply] (if Answer.ofText reply = .yes then [target] else [])) := by
  refine h.after not_settled_nil (fun rs => ?_) (fun rs => ?_) (fun rs => ?_) ?_ ?_
  · rw [Settled, Settled, decisions_cons hclear, List.mem_cons, List.length_cons, List.length_cons,
      Nat.succ_le_succ_iff]
    simp [Ne.symm hquit]
  · rw [undecided?, undecided?, decisions_cons hclear, List.length_cons, List.getElem?_cons_succ]
  · rw [chosen, chosen, decisions_cons hclear, List.zip_cons_cons, List.filter_cons]
    split <;> simp_all
  · rw [turn_zero, if_neg hclear]
  · simp [hclear]

/-- Asking goes by the clear answers, whatever the targets. -/
lemma ask_answered (targets replies : List Text) : Answered targets replies (ask targets replies) := by
  fun_induction ask targets replies with
  | case1 replies =>
    refine ⟨Nat.zero_le _, by simp, by simp [Settled], by simp, by simp [chosen], ?_, by simp⟩
    simp [Inquiry.questions]
  | case2 target rest =>
    refine ⟨Nat.le_refl _, by simp, by simp [Settled, decisions], by simp, by simp, ?_, by simp⟩
    simp [Inquiry.questions, turn, undecided?, decisions]
  | case3 target rest reply replies said hyes ih =>
    have := ih.decided target reply (by simp [hyes]) (by simp [hyes])
    simpa [hyes] using this
  | case4 target rest reply replies said hno ih =>
    have := ih.decided target reply (by simp [hno]) (by simp [hno])
    simpa [hno] using this
  | case5 target rest reply replies said hquit =>
    have hsettled : Settled (target :: rest) [reply] := .inl (by simp [decisions, hquit])
    refine ⟨by simp, fun m hm => ?_, by simpa using hsettled, by simp, ?_, ?_, ?_⟩
    · obtain rfl : m = 0 := Nat.lt_one_iff.mp hm
      exact not_settled_nil
    · simp [chosen, decisions, hquit]
    · simp [Inquiry.questions, turn_zero, hquit, said]
    · simp [hquit, said]
  | case6 target rest reply replies said hunclear ih =>
    refine ih.after not_settled_nil (fun rs => ?_) (fun rs => ?_) (fun rs => ?_) ?_ ?_
    · rw [Settled, Settled, decisions_unclear hunclear]
    · rw [undecided?, undecided?, decisions_unclear hunclear]
    · rw [decisions_unclear hunclear, List.nil_append]
    · rw [turn_zero, if_pos hunclear]
      rfl
    · simp [hunclear, said]

lemma accepted_of_after (h : ∃ all, (i.after said accepted).accepted = some all) : ∃ all, i.accepted = some all := by
  obtain ⟨all, hall⟩ := h
  obtain ⟨later, hlater, -⟩ := Option.map_eq_some_iff.mp hall
  exact ⟨later, hlater⟩

/-- The replies behind those used make no difference. -/
lemma ask_used (targets replies later : List Text) (h : ∃ all, (ask targets replies).accepted = some all) :
    ask targets (replies.take (ask targets replies).used ++ later) = ask targets replies := by
  fun_induction ask targets replies with
  | case1 replies => simp [ask]
  | case2 target rest => simp at h
  | case3 target rest reply replies said hyes ih =>
    change ask (target :: rest) (reply :: (replies.take (ask rest replies).used ++ later)) = _
    rw [ask, hyes, ih (accepted_of_after h)]
  | case4 target rest reply replies said hno ih =>
    change ask (target :: rest) (reply :: (replies.take (ask rest replies).used ++ later)) = _
    rw [ask, hno, ih (accepted_of_after h)]
  | case5 target rest reply replies said hquit =>
    change ask (target :: rest) (reply :: later) = _
    rw [ask, hquit]
  | case6 target rest reply replies said hunclear ih =>
    change ask (target :: rest) (reply :: (replies.take (ask (target :: rest) replies).used ++ later)) = _
    rw [ask, hunclear, ih (accepted_of_after h)]

/-- One name is taken without a question. Of several, each clear answer decides the next one: asking stops at the first
wish to stop, or when all are decided, and whatever would be answered after that is not heard. If the replies run out
before, there is no list. -/
theorem inquire_answered (targets replies : List Text) :
    (targets.length ≤ 1 → inquire targets replies = ⟨[], 0, some targets⟩) ∧
    (2 ≤ targets.length → Answered targets replies (inquire targets replies) ∧
      (∀ j < (inquire targets replies).questions, ∃ target, undecided? targets (replies.take j) = some target) ∧
      ((∃ all, (inquire targets replies).accepted = some all) → ∀ later,
        inquire targets (replies.take (inquire targets replies).used ++ later) = inquire targets replies)) ∧
    ∀ reply, (Answer.ofText reply = .yes ↔ Text.lower (Text.strip reply) = ['y']) ∧
      (Answer.ofText reply = .no ↔ Text.lower (Text.strip reply) = ['n']) ∧
      (Answer.ofText reply = .quit ↔ Text.lower (Text.strip reply) = ['q']) := by
  refine ⟨fun h => if_pos h, fun h => ?_, fun reply => ⟨ofText_eq_yes, ofText_eq_no, ofText_eq_quit⟩⟩
  have hask : inquire targets = ask targets := by
    funext replies
    exact if_neg (by omega)
  have hanswered := ask_answered targets replies
  simp only [hask]
  refine ⟨hanswered, fun j hj => ?_, fun hall later => ask_used targets replies later hall⟩
  -- the last question may be one that no reply comes to
  by_cases hnone : (ask targets replies).accepted = none
  · rw [Inquiry.questions, if_pos hnone] at hj
    rcases Nat.lt_or_eq_of_le (Nat.le_of_lt_succ hj) with hlt | rfl
    · exact exists_undecided (hanswered.unsettled j hlt)
    · refine exists_undecided fun hsettled => ?_
      obtain ⟨all, hall⟩ := hanswered.settled_iff.mpr hsettled
      rw [hnone] at hall
      simp at hall
  · rw [Inquiry.questions, if_neg hnone] at hj
    exact exists_undecided (hanswered.unsettled j hj)

def threeTargets : List Text := ["App".toList, "Core".toList, "Tests".toList]

/-- A yes, a word that is no answer, a no, and a wish to stop, with a reply too many behind it. -/
def fiveReplies : List Text := [" Y\t".toList, "maybe".toList, "n".toList, "Q ".toList, "y".toList]

theorem inquire_answered_stopped : (inquire threeTargets fiveReplies).used = 4 ∧
    (inquire threeTargets fiveReplies).accepted = some ["App".toList] ∧
    Answered threeTargets fiveReplies (inquire threeTargets fiveReplies) ∧
    inquire threeTargets (fiveReplies.take 4 ++ ["n".toList]) = inquire threeTargets fiveReplies ∧
    (∃ target, undecided? threeTargets (fiveReplies.take 2) = some target) ∧
    inquire ["App".toList] fiveReplies = ⟨[], 0, some ["App".toList]⟩ := by
  have hused : (inquire threeTargets fiveReplies).used = 4 := by decide +kernel
  have hall : (inquire threeTargets fiveReplies).accepted = some ["App".toList] := by decide +kernel
  obtain ⟨hanswered, hasked, hunheard⟩ := (inquire_answered threeTargets fiveReplies).2.1 (by decide)
  have hlater := hunheard ⟨_, hall⟩ ["n".toList]
  rw [hused] at hlater
  exact ⟨hused, hall, hanswered, hlater, hasked 2 (by decide +kernel), (inquire_answered _ _).1 (by decide)⟩

end PackageInstaller.Selection
