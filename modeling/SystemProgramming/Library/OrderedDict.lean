import SystemProgramming.Library.Weights

universe u v

structure OrderedDict (κ : Type u) (ν : Type v) where
  entries : List (κ × ν)
  nodup : (entries.map Prod.fst).Nodup

namespace OrderedDict

variable {κ : Type u} {ν : Type v} [DecidableEq κ]

def lookup (key : κ) : List (κ × ν) → Option ν
  | [] => none
  | (k, value) :: entries => if k = key then some value else lookup key entries

def assign (key : κ) (value : ν) : List (κ × ν) → List (κ × ν)
  | [] => [(key, value)]
  | (k, old) :: entries => if k = key then (key, value) :: entries else (k, old) :: assign key value entries

theorem lookup_eq_none {key : κ} {entries : List (κ × ν)} :
    lookup key entries = none ↔ key ∉ entries.map Prod.fst := by
  induction entries with
  | nil => simp [lookup]
  | cons entry entries ih =>
    rcases entry with ⟨k, value⟩
    rw [lookup, List.map_cons, List.mem_cons, not_or, ← ih]
    by_cases same : k = key
    · simp [same]
    · simp [same, Ne.symm same]

theorem lookup_eq_some {key : κ} {value : ν} {entries : List (κ × ν)}
    (nodup : (entries.map Prod.fst).Nodup) : lookup key entries = some value ↔ (key, value) ∈ entries := by
  induction entries with
  | nil => simp [lookup]
  | cons entry entries ih =>
    rcases entry with ⟨k, first⟩
    rw [List.map_cons, List.nodup_cons] at nodup
    rw [lookup, List.mem_cons, ← ih nodup.2, Prod.mk.injEq]
    by_cases same : k = key
    · subst same
      rw [if_pos rfl, lookup_eq_none.mpr nodup.1]
      simp [eq_comm]
    · simp [same, Ne.symm same]

theorem lookup_assign (key other : κ) (value : ν) (entries : List (κ × ν)) :
    lookup other (assign key value entries) = if key = other then some value else lookup other entries := by
  induction entries with
  | nil => rfl
  | cons entry entries ih =>
    rcases entry with ⟨k, old⟩
    rw [assign, lookup]
    by_cases here : k = key
    · rw [if_pos here, lookup, here]
      split <;> rfl
    · rw [if_neg here, lookup, ih]
      by_cases same : k = other
      · subst same
        rw [if_pos rfl, if_neg (Ne.symm here), if_pos rfl]
      · rw [if_neg same, if_neg same]

theorem keys_assign (key : κ) (value : ν) (entries : List (κ × ν)) :
    (assign key value entries).map Prod.fst = entries.map Prod.fst ∨
      key ∉ entries.map Prod.fst ∧
        (assign key value entries).map Prod.fst = entries.map Prod.fst ++ [key] := by
  induction entries with
  | nil => exact .inr ⟨List.not_mem_nil, rfl⟩
  | cons entry entries ih =>
    rcases entry with ⟨k, old⟩
    rw [assign]
    by_cases here : k = key
    · rw [if_pos here, List.map_cons, List.map_cons, here]
      exact .inl rfl
    · rw [if_neg here, List.map_cons, List.map_cons]
      rcases ih with same | ⟨new, last⟩
      · exact .inl (by rw [same])
      · refine .inr ⟨?_, by rw [last, List.cons_append]⟩
        rw [List.mem_cons, not_or]
        exact ⟨Ne.symm here, new⟩

theorem nodup_assign (key : κ) (value : ν) {entries : List (κ × ν)}
    (nodup : (entries.map Prod.fst).Nodup) : ((assign key value entries).map Prod.fst).Nodup := by
  rcases keys_assign key value entries with same | ⟨new, last⟩
  · rwa [same]
  · rw [last, List.nodup_append]
    refine ⟨nodup, List.pairwise_singleton _ key, ?_⟩
    intro k old other single
    rw [List.mem_singleton.mp single]
    intro same
    exact new (same ▸ old)

def empty : OrderedDict κ ν := ⟨[], List.nodup_nil⟩

def get? (d : OrderedDict κ ν) (key : κ) : Option ν := lookup key d.entries

def contains (d : OrderedDict κ ν) (key : κ) : Bool := (d.get? key).isSome

def set (d : OrderedDict κ ν) (key : κ) (value : ν) : OrderedDict κ ν :=
  ⟨assign key value d.entries, nodup_assign key value d.nodup⟩

@[simp] theorem get?_empty (key : κ) : (empty : OrderedDict κ ν).get? key = none := rfl

theorem get?_set (d : OrderedDict κ ν) (key other : κ) (value : ν) :
    (d.set key value).get? other = if key = other then some value else d.get? other :=
  lookup_assign key other value d.entries

@[simp] theorem get?_set_self (d : OrderedDict κ ν) (key : κ) (value : ν) :
    (d.set key value).get? key = some value := by
  rw [get?_set, if_pos rfl]

theorem get?_set_of_ne (d : OrderedDict κ ν) {key other : κ} (value : ν) (apart : key ≠ other) :
    (d.set key value).get? other = d.get? other := by
  rw [get?_set, if_neg apart]

theorem get?_eq_some (d : OrderedDict κ ν) {key : κ} {value : ν} :
    d.get? key = some value ↔ (key, value) ∈ d.entries := lookup_eq_some d.nodup

omit [DecidableEq κ] in
theorem nodup_pairs {τ : Type*} (d : OrderedDict κ ν) (elements : ν → List τ)
    (each : ∀ value, (elements value).Nodup) :
    (d.entries.flatMap fun entry => (elements entry.2).map fun t => (entry.1, t)).Nodup := by
  rcases d with ⟨entries, nodup⟩
  dsimp only
  induction entries with
  | nil => exact List.nodup_nil
  | cons entry entries ih =>
    rw [List.map_cons, List.nodup_cons] at nodup
    rw [List.flatMap_cons, List.nodup_append]
    have first : ((elements entry.2).map fun t => (entry.1, t)).Nodup :=
      List.Pairwise.map _ (fun _ _ apart same => apart (Prod.mk.inj same).2) (each entry.2)
    refine ⟨first, ih nodup.2, ?_⟩
    intro a here b later same
    rcases List.mem_map.mp here with ⟨t, -, rfl⟩
    rcases List.mem_flatMap.mp later with ⟨other, among, within⟩
    rcases List.mem_map.mp within with ⟨u, -, rfl⟩
    rw [(Prod.mk.inj same).1] at nodup
    exact nodup.1 (List.mem_map_of_mem among)

section Total

variable (w : ν → Nat)

def total (d : OrderedDict κ ν) : Nat := Weights.total (fun entry => w entry.2) d.entries

theorem total_assign (key : κ) (value : ν) (entries : List (κ × ν)) :
    Weights.total (fun entry => w entry.2) (assign key value entries) + (lookup key entries).elim 0 w =
      Weights.total (fun entry => w entry.2) entries + w value := by
  induction entries with
  | nil => exact Nat.add_comm _ _
  | cons entry entries ih =>
    rcases entry with ⟨k, old⟩
    rw [assign, lookup]
    by_cases here : k = key
    · rw [if_pos here, if_pos here, Weights.total, Weights.total, Option.elim_some]
      dsimp only
      omega
    · rw [if_neg here, if_neg here, Weights.total, Weights.total]
      omega

theorem total_set (d : OrderedDict κ ν) (key : κ) (value : ν) :
    (d.set key value).total w + (d.get? key).elim 0 w = d.total w + w value :=
  total_assign w key value d.entries

end Total

end OrderedDict
