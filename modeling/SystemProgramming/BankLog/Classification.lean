import SystemProgramming.BankLog.Aggregation

namespace SystemProgramming.BankLog

open TextSearch

def FirstId (line : Line) (bank : BankId) : Prop :=
  ∃ before after, line = before ++ ('[' :: (bank ++ [']'])) ++ after ∧
    First 6 reBankId before ('[' :: (bank ++ [']'])) after

def FirstMarker (line : Line) (marker : Marker) : Prop :=
  ∃ earlier later, markers = earlier ++ marker :: later ∧ marker.text <:+: line ∧
    ∀ other ∈ earlier, ¬ other.text <:+: line

theorem isDecimal_ne {c : Char} (digit : isDecimal c = true) : c ≠ '[' ∧ c ≠ ']' := by
  refine ⟨?_, ?_⟩
  · intro same
    rw [same] at digit
    exact absurd digit (by decide)
  · intro same
    rw [same] at digit
    exact absurd digit (by decide)

/-- What matches is a number in brackets, which are what is taken away from it. -/
theorem reBankId_bracketed {window : List Char} (matching : reBankId window = true) :
    ∃ bank, window = '[' :: (bank ++ [']']) ∧ bank.length = 4 ∧
      (window.filter (· ≠ '[')).filter (· ≠ ']') = bank := by
  unfold reBankId at matching
  split at matching
  · rename_i a b c d
    simp only [Bool.and_eq_true] at matching
    rcases matching with ⟨⟨⟨first, second⟩, third⟩, fourth⟩
    refine ⟨[a, b, c, d], rfl, rfl, ?_⟩
    simp [isDecimal_ne first, isDecimal_ne second, isDecimal_ne third, isDecimal_ne fourth]
  · cases matching

theorem reBankId_length (window : List Char) (matching : reBankId window = true) : window.length = 6 := by
  rcases reBankId_bracketed matching with ⟨bank, rfl, size, -⟩
  simp [size]

theorem exists_firstId {line window : List Char} (matching : reBankId window = true)
    (inside : window <:+: line) : ∃ bank, FirstId line bank := by
  rcases exists_first reBankId_length (by decide) matching inside with ⟨before, first, after, split, leftmost⟩
  rcases reBankId_bracketed leftmost.here with ⟨bank, rfl, -⟩
  exact ⟨bank, before, after, split, leftmost⟩

theorem bankOf_of_firstId {line : Line} {bank : BankId} (id : FirstId line bank) :
    bankOf line = if 0 < find "WARNING".toList line then some bank else none := by
  rcases id with ⟨before, after, split, leftmost⟩
  rcases reBankId_bracketed leftmost.here with ⟨digits, same, -, stripped⟩
  have digits_eq : digits = bank := by simpa [eq_comm] using same
  have head : (findall line).head? = some ('[' :: (bank ++ [']'])) := by
    rw [findall, split]
    exact head_scan reBankId_length (by decide) leftmost
  rcases List.head?_eq_some_iff.mp head with ⟨others, found⟩
  unfold bankOf
  rw [found]
  dsimp only
  rw [stripped, digits_eq]

theorem exists_firstMarker {line : Line} (contained : ∃ marker ∈ markers, marker.text <:+: line) :
    ∃ marker, FirstMarker line marker := by
  rcases contained with ⟨some_marker, member, inside⟩
  have found : (markers.find? fun marker => (indexOf marker.text line).isSome).isSome = true := by
    rw [List.find?_isSome]
    exact ⟨some_marker, member, (indexOf_isSome _ _).mpr inside⟩
  rcases Option.isSome_iff_exists.mp found with ⟨marker, first⟩
  rcases List.find?_eq_some_iff_append.mp first with ⟨there, earlier, later, split, none_there⟩
  refine ⟨marker, earlier, later, split, (indexOf_isSome _ _).mp there, ?_⟩
  intro other among contains
  have absent := none_there other among
  rw [(indexOf_isSome _ _).mpr contains] at absent
  cases absent

theorem markers_nodup : (markers.map Marker.erro).Nodup := by decide

theorem erroOf_of_firstMarker {line : Line} {marker : Marker} (first : FirstMarker line marker) :
    erroOf line = some marker.erro ↔ ¬ marker.text <+: line := by
  rcases first with ⟨earlier, later, split, inside, none_earlier⟩
  have skipped : earlier.find? (fun marker => decide (0 < find marker.text line)) = none := by
    rw [List.find?_eq_none]
    intro other among positive
    rw [decide_eq_true_eq, find_pos] at positive
    exact none_earlier other among positive.1
  have here : 0 < find marker.text line ↔ ¬ marker.text <+: line := by
    rw [find_pos, and_iff_right inside]
  rw [← here, erroOf, split, List.find?_append, skipped, Option.none_or]
  by_cases positive : 0 < find marker.text line
  · rw [List.find?_cons_of_pos (by simp [positive])]
    exact iff_of_true rfl positive
  · refine iff_of_false ?_ positive
    rw [List.find?_cons_of_neg (by simp [positive])]
    intro found
    rcases Option.map_eq_some_iff.mp found with ⟨other, among, same⟩
    have names := markers_nodup
    rw [split, List.map_append, List.map_cons, List.nodup_append] at names
    have apart := (List.nodup_cons.mp names.2.1).1
    exact apart (same ▸ List.mem_map_of_mem (List.mem_of_find?_eq_some among))

theorem classify_iff {line : Line} {bank : BankId} {marker : Marker} (warning : "WARNING".toList <:+: line)
    (id : FirstId line bank) (first : FirstMarker line marker) :
    classify line = some (bank, marker.erro) ↔
      ¬ "WARNING".toList <+: line ∧ ¬ marker.text <+: line := by
  have position : 0 < find "WARNING".toList line ↔ ¬ "WARNING".toList <+: line := by
    rw [find_pos, and_iff_right warning]
  rw [classify, bankOf_of_firstId id, ← position, ← erroOf_of_firstMarker first]
  by_cases positive : 0 < find "WARNING".toList line
  · rw [if_pos positive, and_iff_right positive, Option.bind_some]
    simp
  · rw [if_neg positive, Option.bind_none]
    exact iff_of_false nofun (fun both => positive both.1)

/-- A line is counted under its bank and its first marker exactly when neither the word WARNING nor the
    marker stands at its beginning. -/
theorem line_counted (line : Line) (warning : "WARNING".toList <:+: line)
    (id : ∃ window, reBankId window = true ∧ window <:+: line)
    (contained : ∃ marker ∈ markers, marker.text <:+: line) :
    (∃ bank, FirstId line bank) ∧ (∃ marker, FirstMarker line marker) ∧
      ∀ bank marker, FirstId line bank → FirstMarker line marker →
        ((∀ before after, (num (readLog (before ++ line :: after)) bank marker.erro).getD 0 =
            (num (readLog (before ++ after)) bank marker.erro).getD 0 + 1) ↔
          ¬ "WARNING".toList <+: line ∧ ¬ marker.text <+: line) := by
  rcases id with ⟨window, matching, inside⟩
  refine ⟨exists_firstId matching inside, exists_firstMarker contained, ?_⟩
  intro bank marker here first
  rw [← classify_iff warning here first]
  have more : ∀ before after, occurrences bank marker.erro (before ++ line :: after) =
      occurrences bank marker.erro (before ++ after) +
        if classify line = some (bank, marker.erro) then 1 else 0 := by
    intro before after
    unfold occurrences
    rw [List.countP_append, List.countP_append, List.countP_cons, Nat.add_assoc]
    simp only [decide_eq_true_eq]
  simp only [amount_readLog, more]
  by_cases counted : classify line = some (bank, marker.erro)
  · simp [counted]
  · simp [counted]

def timedOut : Marker := ⟨"Errno 110".toList, "连接超时"⟩

def warningInside : Line := "x WARNING [0102] Errno 110".toList

theorem line_counted_inside :
    (num (readLog [warningInside]) "0102".toList timedOut.erro).getD 0 =
      (num (readLog []) "0102".toList timedOut.erro).getD 0 + 1 := by
  have contained : timedOut.text <:+: warningInside := ⟨"x WARNING [0102] ".toList, [], by decide⟩
  have counted := line_counted warningInside ⟨"x ".toList, " [0102] Errno 110".toList, by decide⟩
    ⟨"[0102]".toList, by decide, "x WARNING ".toList, " Errno 110".toList, by decide⟩
    ⟨timedOut, List.mem_cons_self, contained⟩
  have id : FirstId warningInside "0102".toList :=
    ⟨"x WARNING ".toList, " Errno 110".toList, by decide, by decide, by decide⟩
  have first : FirstMarker warningInside timedOut := ⟨[], markers.tail, rfl, contained, nofun⟩
  exact (counted.2.2 "0102".toList timedOut id first).mpr ⟨by decide, by decide⟩ [] []

def leadingWarning : Line := "WARNING [0102] Errno 110".toList

theorem leadingWarning_missed :
    ¬ ∀ (line : Line) (bank : BankId) (marker : Marker), "WARNING".toList <:+: line →
      FirstId line bank → FirstMarker line marker → ∀ before after,
        (num (readLog (before ++ line :: after)) bank marker.erro).getD 0 =
          (num (readLog (before ++ after)) bank marker.erro).getD 0 + 1 := by
  intro always
  have id : FirstId leadingWarning "0102".toList :=
    ⟨"WARNING ".toList, " Errno 110".toList, by decide, by decide, by decide⟩
  have first : FirstMarker leadingWarning timedOut :=
    ⟨[], markers.tail, rfl, ⟨"WARNING [0102] ".toList, [], by decide⟩, nofun⟩
  have counted := always leadingWarning "0102".toList timedOut
    ⟨[], " [0102] Errno 110".toList, by decide⟩ id first [] []
  exact absurd counted (by decide)

end SystemProgramming.BankLog
