import SystemProgramming.BankLog.Aggregation

namespace SystemProgramming.BankLog

def triples (erroDict : ErroDict) : List (BankId × String × Nat) :=
  erroDict.entries.flatMap fun bank => bank.2.entries.map fun erro => (bank.1, erro.1, erro.2)

def opened : Report := ⟨[.titles "银行" "错误名" "次数"], none⟩

theorem writeReport_eq (erroDict : ErroDict) :
    writeReport erroDict = (triples erroDict).foldl (fun report t => writeRow report t.1 t.2.1 t.2.2) opened := by
  rw [triples, List.foldl_flatMap]
  simp only [List.foldl_map]
  rfl

theorem mem_triples (erroDict : ErroDict) (bank : BankId) (erro : String) (n : Nat) :
    (bank, erro, n) ∈ triples erroDict ↔ num erroDict bank erro = some n := by
  rw [triples, List.mem_flatMap, num, Option.bind_eq_some_iff]
  constructor
  · intro there
    rcases there with ⟨⟨b, inner⟩, outer, within⟩
    rcases List.mem_map.mp within with ⟨⟨e, m⟩, entry, same⟩
    cases same
    exact ⟨inner, erroDict.get?_eq_some.mpr outer, inner.get?_eq_some.mpr entry⟩
  · intro there
    rcases there with ⟨inner, outer, within⟩
    refine ⟨(bank, inner), erroDict.get?_eq_some.mp outer, ?_⟩
    exact List.mem_map.mpr ⟨(erro, n), inner.get?_eq_some.mp within, rfl⟩

theorem nodup_triples (erroDict : ErroDict) :
    ((triples erroDict).map fun t => (t.1, t.2.1)).Nodup := by
  have pairs := erroDict.nodup_pairs (fun inner => inner.entries.map Prod.fst) (fun inner => inner.nodup)
  rw [triples, List.map_flatMap]
  simp only [List.map_map] at pairs ⊢
  exact pairs

def rowOf (t : BankId × String × Nat) : CsvRow :=
  .row (label ((bankDict.get? t.1).getD []) t.1) t.2.1 t.2.2

theorem writeRow_known {report : Report} {t : BankId × String × Nat} (running : report.keyError = none)
    (known : (bankDict.get? t.1).isSome = true) :
    writeRow report t.1 t.2.1 t.2.2 = { report with rows := report.rows ++ [rowOf t] } := by
  rcases Option.isSome_iff_exists.mp known with ⟨name, found⟩
  unfold writeRow rowOf
  rw [running, found]
  rfl

theorem writeRow_failed {report : Report} (t : BankId × String × Nat) (failed : report.keyError.isSome = true) :
    writeRow report t.1 t.2.1 t.2.2 = report := by
  rcases Option.isSome_iff_exists.mp failed with ⟨bank, raised⟩
  unfold writeRow
  rw [raised]

theorem writeRow_unknown {report : Report} {t : BankId × String × Nat} (running : report.keyError = none)
    (unknown : (bankDict.get? t.1).isSome = false) :
    writeRow report t.1 t.2.1 t.2.2 = { report with keyError := some t.1 } := by
  have missing : bankDict.get? t.1 = none := by simpa using unknown
  unfold writeRow
  rw [running, missing]

theorem foldl_known {ts : List (BankId × String × Nat)} {report : Report}
    (running : report.keyError = none) (known : ∀ t ∈ ts, (bankDict.get? t.1).isSome = true) :
    ts.foldl (fun report t => writeRow report t.1 t.2.1 t.2.2) report =
      { report with rows := report.rows ++ ts.map rowOf } := by
  induction ts generalizing report with
  | nil => simp
  | cons t ts ih =>
    have next : ({ report with rows := report.rows ++ [rowOf t] } : Report).keyError = none := running
    rw [List.foldl_cons, writeRow_known running (known t List.mem_cons_self),
      ih next (fun u member => known u (List.mem_cons_of_mem t member))]
    simp

theorem foldl_failed (ts : List (BankId × String × Nat)) {report : Report}
    (failed : report.keyError.isSome = true) :
    ts.foldl (fun report t => writeRow report t.1 t.2.1 t.2.2) report = report := by
  induction ts with
  | nil => rfl
  | cons t ts ih => rw [List.foldl_cons, writeRow_failed t failed, ih]

theorem foldl_keyError {ts : List (BankId × String × Nat)} {report : Report}
    (running : report.keyError = none) :
    (ts.foldl (fun report t => writeRow report t.1 t.2.1 t.2.2) report).keyError = none ↔
      ∀ t ∈ ts, (bankDict.get? t.1).isSome = true := by
  constructor
  · intro finished
    induction ts generalizing report with
    | nil => exact nofun
    | cons t ts ih =>
      rw [List.foldl_cons] at finished
      cases known : (bankDict.get? t.1).isSome with
      | false =>
        rw [writeRow_unknown running known, foldl_failed ts rfl] at finished
        cases finished
      | true =>
        have next : ({ report with rows := report.rows ++ [rowOf t] } : Report).keyError = none := running
        rw [writeRow_known running known] at finished
        intro u member
        rcases List.mem_cons.mp member with here | later
        · rw [here]
          exact known
        · exact ih next finished u later
  · intro known
    rw [foldl_known running known]
    exact running

structure Complete (lines : List Line) (report : Report) : Prop where
  finished : report.keyError = none
  rows : ∃ pairs : List (BankId × String), pairs.Nodup ∧
    (∀ bank erro, (bank, erro) ∈ pairs ↔ 0 < occurrences bank erro lines) ∧
    report.rows = opened.rows ++ pairs.map fun pair =>
      rowOf (pair.1, pair.2, occurrences pair.1 pair.2 lines)

theorem mem_triples_readLog (lines : List Line) (bank : BankId) (erro : String) (n : Nat) :
    (bank, erro, n) ∈ triples (readLog lines) ↔
      0 < occurrences bank erro lines ∧ n = occurrences bank erro lines := by
  rw [mem_triples, num_readLog]
  split
  · rename_i none_there
    simp [none_there]
  · rename_i there
    rw [Option.some.injEq, and_iff_right (Nat.pos_of_ne_zero there), eq_comm]

theorem main_keyError (lines : List Line) : (main lines).keyError = none ↔
    ∀ line ∈ lines, ∀ bank erro, classify line = some (bank, erro) → (bankDict.get? bank).isSome = true := by
  rw [main, writeReport_eq, foldl_keyError rfl]
  constructor
  · intro known line member bank erro counted
    have positive : 0 < occurrences bank erro lines :=
      List.countP_pos_iff.mpr ⟨line, member, decide_eq_true counted⟩
    exact known (bank, erro, _) ((mem_triples_readLog lines bank erro _).mpr ⟨positive, rfl⟩)
  · intro known t member
    rcases t with ⟨bank, erro, n⟩
    rcases List.countP_pos_iff.mp ((mem_triples_readLog lines bank erro n).mp member).1 with
      ⟨line, inside, counted⟩
    exact known line inside bank erro (of_decide_eq_true counted)

theorem main_rows {lines : List Line} (finished : (main lines).keyError = none) :
    (main lines).rows = opened.rows ++ (triples (readLog lines)).map rowOf := by
  rw [main, writeReport_eq] at finished ⊢
  rw [foldl_known rfl ((foldl_keyError rfl).mp finished)]

/-- The report is complete exactly when the table has the bank of each line that is counted. -/
theorem main_complete (lines : List Line) : Complete lines (main lines) ↔
    ∀ line ∈ lines, ∀ bank erro, classify line = some (bank, erro) → (bankDict.get? bank).isSome = true := by
  rw [← main_keyError]
  constructor
  · exact Complete.finished
  · intro finished
    refine ⟨finished, (triples (readLog lines)).map (fun t => (t.1, t.2.1)), nodup_triples _, ?_, ?_⟩
    · intro bank erro
      constructor
      · intro among
        rcases List.mem_map.mp among with ⟨⟨b, e, n⟩, member, same⟩
        cases same
        exact ((mem_triples_readLog lines b e n).mp member).1
      · intro positive
        exact List.mem_map.mpr
          ⟨(bank, erro, _), (mem_triples_readLog lines bank erro _).mpr ⟨positive, rfl⟩, rfl⟩
    · rw [main_rows finished, List.map_map]
      congr 1
      refine List.map_congr_left ?_
      intro t member
      rcases t with ⟨b, e, n⟩
      have counted := ((mem_triples_readLog lines b e n).mp member).2
      rw [Function.comp_apply, ← counted]

def portLine : Line := "- WARNING [8080] Errno 111".toList

theorem portLine_half_written :
    ¬ ∀ lines : List Line, Complete lines (main lines) := by
  intro always
  have finished := (always [portLine]).finished
  exact absurd finished (by decide)

end SystemProgramming.BankLog
