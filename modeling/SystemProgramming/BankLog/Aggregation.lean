import SystemProgramming.BankLog.Model

namespace SystemProgramming.BankLog

def classify (line : Line) : Option (BankId × String) :=
  (bankOf line).bind fun bank => (erroOf line).map fun erro => (bank, erro)

def num (erroDict : ErroDict) (bank : BankId) (erro : String) : Option Nat :=
  (erroDict.get? bank).bind fun inner => inner.get? erro

def total (erroDict : ErroDict) : Nat := OrderedDict.total (fun inner => inner.total id) erroDict

variable (erroDict : ErroDict) (bank b : BankId) (erro e : String)

section AddBank

theorem get?_addBank : (addBank erroDict bank).get? bank = some ((erroDict.get? bank).getD .empty) := by
  unfold addBank OrderedDict.contains
  cases here : erroDict.get? bank with
  | none => exact OrderedDict.get?_set_self erroDict bank _
  | some inner => exact here

theorem get?_addBank_of_ne (apart : bank ≠ b) : (addBank erroDict bank).get? b = erroDict.get? b := by
  unfold addBank
  split
  · rfl
  · exact OrderedDict.get?_set_of_ne erroDict _ apart

theorem num_addBank : num (addBank erroDict bank) b e = num erroDict b e := by
  by_cases same : bank = b
  · subst same
    rw [num, get?_addBank, num]
    cases erroDict.get? bank <;> rfl
  · rw [num, get?_addBank_of_ne erroDict bank b same, num]

theorem total_addBank : total (addBank erroDict bank) = total erroDict := by
  unfold addBank OrderedDict.contains
  cases here : erroDict.get? bank with
  | some inner => rfl
  | none =>
    have more := erroDict.total_set (fun inner : OrderedDict String Nat => inner.total id) bank .empty
    rw [here] at more
    exact more

end AddBank

section CountErro

variable {erroDict bank} {inner : OrderedDict String Nat} (here : erroDict.get? bank = some inner)

include here

/-- Both branches put in one more than what was there. -/
theorem countErro_eq :
    countErro erroDict bank erro =
      erroDict.set bank (inner.set erro ((inner.get? erro).getD 0 + 1)) := by
  unfold countErro
  rw [here, Option.getD_some]
  dsimp only
  cases inner.get? erro <;> rfl

theorem num_countErro : num (countErro erroDict bank erro) b e =
    if bank = b ∧ erro = e then some ((num erroDict b e).getD 0 + 1) else num erroDict b e := by
  rw [countErro_eq erro here, num, OrderedDict.get?_set]
  by_cases same : bank = b
  · subst same
    rw [if_pos rfl, num, here, Option.bind_some, Option.bind_some, OrderedDict.get?_set]
    by_cases again : erro = e
    · rw [if_pos again, if_pos ⟨rfl, again⟩, again]
    · rw [if_neg again, if_neg (fun both => again both.2)]
  · rw [if_neg same, if_neg (fun both => same both.1), num]

theorem total_countErro : total (countErro erroDict bank erro) = total erroDict + 1 := by
  rw [countErro_eq erro here]
  have outer := erroDict.total_set (fun inner : OrderedDict String Nat => inner.total id) bank
    (inner.set erro ((inner.get? erro).getD 0 + 1))
  have within := inner.total_set id erro ((inner.get? erro).getD 0 + 1)
  rw [here, Option.elim_some] at outer
  have old : (inner.get? erro).elim 0 id = (inner.get? erro).getD 0 := by
    cases inner.get? erro <;> rfl
  rw [old] at within
  dsimp only [id] at within
  unfold total
  omega

end CountErro

section ReadLine

variable (line : Line)

theorem num_readLine : num (readLine erroDict line) b e =
    if classify line = some (b, e) then some ((num erroDict b e).getD 0 + 1) else num erroDict b e := by
  unfold readLine classify
  cases bankOf line with
  | none => rfl
  | some bank =>
    cases erroOf line with
    | none => exact num_addBank erroDict bank b e
    | some erro =>
      dsimp only
      rw [num_countErro b erro e (get?_addBank erroDict bank), num_addBank]
      simp

theorem contains_readLine : (readLine erroDict line).contains b =
    (decide (bankOf line = some b) || erroDict.contains b) := by
  unfold readLine
  cases bankOf line with
  | none => rfl
  | some bank =>
    have added : (addBank erroDict bank).contains b = (decide (some bank = some b) || erroDict.contains b) := by
      unfold OrderedDict.contains
      by_cases same : bank = b
      · subst same
        rw [get?_addBank]
        simp
      · rw [get?_addBank_of_ne erroDict bank b same]
        simp [same]
    cases erroOf line with
    | none => exact added
    | some erro =>
      dsimp only
      rw [countErro_eq erro (get?_addBank erroDict bank), ← added, OrderedDict.contains, OrderedDict.contains,
        OrderedDict.get?_set]
      by_cases same : bank = b
      · subst same
        rw [if_pos rfl, get?_addBank]
        rfl
      · rw [if_neg same]

theorem total_readLine : total (readLine erroDict line) =
    total erroDict + if (classify line).isSome then 1 else 0 := by
  unfold readLine classify
  cases bankOf line with
  | none => rfl
  | some bank =>
    cases erroOf line with
    | none => exact total_addBank erroDict bank
    | some erro =>
      dsimp only
      rw [total_countErro erro (get?_addBank erroDict bank), total_addBank]
      rfl

end ReadLine

def occurrences (bank : BankId) (erro : String) (lines : List Line) : Nat :=
  lines.countP fun line => decide (classify line = some (bank, erro))

variable (lines : List Line)

theorem num_foldl : num (lines.foldl readLine erroDict) b e =
    if occurrences b e lines = 0 then num erroDict b e
    else some ((num erroDict b e).getD 0 + occurrences b e lines) := by
  induction lines generalizing erroDict with
  | nil => rfl
  | cons line lines ih =>
    rw [List.foldl_cons, ih, num_readLine]
    unfold occurrences
    rw [List.countP_cons]
    by_cases here : classify line = some (b, e)
    · simp only [here, decide_true, if_true, Option.getD_some, Nat.add_eq_zero_iff, Nat.one_ne_zero,
        and_false, if_false]
      split
      · rename_i none_later
        rw [none_later]
      · congr 1
        omega
    · simp [here]

theorem contains_foldl : (lines.foldl readLine erroDict).contains b =
    (erroDict.contains b || lines.any fun line => decide (bankOf line = some b)) := by
  induction lines generalizing erroDict with
  | nil => simp
  | cons line lines ih =>
    rw [List.foldl_cons, ih, contains_readLine, List.any_cons, Bool.or_comm (decide _), Bool.or_assoc]

theorem total_foldl : total (lines.foldl readLine erroDict) =
    total erroDict + lines.countP fun line => (classify line).isSome := by
  induction lines generalizing erroDict with
  | nil => rfl
  | cons line lines ih =>
    rw [List.foldl_cons, ih, total_readLine, List.countP_cons, Nat.add_assoc, Nat.add_comm (List.countP _ _)]

theorem num_readLog : num (readLog lines) b e =
    if occurrences b e lines = 0 then none else some (occurrences b e lines) := by
  rw [readLog, num_foldl]
  simp [num]

theorem amount_readLog : (num (readLog lines) b e).getD 0 = occurrences b e lines := by
  rw [num_readLog]
  split
  · rename_i none_there
    rw [none_there]
    rfl
  · rfl

theorem contains_readLog :
    (readLog lines).contains b = lines.any fun line => decide (bankOf line = some b) := by
  rw [readLog, contains_foldl]
  rfl

def mapping (erroDict : ErroDict) : BankId → Option (String → Option Nat) :=
  fun bank => (erroDict.get? bank).map fun inner erro => inner.get? erro

theorem mapping_ext {first second : ErroDict} (banks : ∀ b, first.contains b = second.contains b)
    (counts : ∀ b e, num first b e = num second b e) : mapping first = mapping second := by
  funext b
  have there := banks b
  have same := counts b
  unfold OrderedDict.contains at there
  unfold num at same
  unfold mapping
  cases left : first.get? b with
  | none =>
    rw [left] at there
    have right : second.get? b = none := by simpa using there.symm
    rw [right]
  | some inner =>
    rw [left] at there same
    rcases Option.isSome_iff_exists.mp there.symm with ⟨other, right⟩
    rw [right] at same ⊢
    simp only [Option.bind_some] at same
    simp only [Option.map_some, Option.some.injEq]
    funext e
    exact same e

/-- What the loop leaves behind is the number of the lines of each kind, whatever their order, and
    for each way to cut the log in two the sum of what the parts leave. -/
theorem readLog_counts (lines : List Line) :
    (∀ bank erro, num (readLog lines) bank erro =
      if occurrences bank erro lines = 0 then none else some (occurrences bank erro lines)) ∧
    total (readLog lines) = lines.countP (fun line => (classify line).isSome) ∧
    (∀ other : List Line, other.Perm lines → mapping (readLog other) = mapping (readLog lines)) ∧
    ∀ first second : List Line, (first ++ second).Perm lines →
      (∀ bank, (readLog lines).contains bank =
        ((readLog first).contains bank || (readLog second).contains bank)) ∧
      ∀ bank erro, (num (readLog lines) bank erro).getD 0 =
        (num (readLog first) bank erro).getD 0 + (num (readLog second) bank erro).getD 0 := by
  refine ⟨fun bank erro => num_readLog bank erro lines, ?_, ?_, ?_⟩
  · rw [readLog, total_foldl]
    exact Nat.zero_add _
  · intro other same
    apply mapping_ext
    · intro b
      rw [contains_readLog, contains_readLog]
      exact same.any_eq
    · intro b e
      rw [num_readLog, num_readLog, occurrences, occurrences, same.countP_eq]
  · intro first second same
    refine ⟨?_, ?_⟩
    · intro bank
      rw [contains_readLog, contains_readLog, contains_readLog, ← List.any_append]
      exact same.symm.any_eq
    · intro bank erro
      rw [amount_readLog, amount_readLog, amount_readLog, occurrences, occurrences, occurrences, ← List.countP_append]
      exact same.symm.countP_eq _

end SystemProgramming.BankLog
