import Mathlib.Logic.Function.Basic
import Mathlib.Tactic.Common

universe u v

namespace FileSystem

structure Path (ν : Type u) where
  absolute : Bool
  names : List ν

inductive Node (ν : Type u) (β : Type v) where
  | file (content : List β)
  | dir (entries : ν → Option Nat)
  | link (target : Path ν)

inductive Target (ν : Type u) where
  | found (i : Nat)
  | missing (d : Nat) (name : ν)
  deriving DecidableEq

end FileSystem

structure FileSystem (ν : Type u) (β : Type v) where
  node : Nat → Option (FileSystem.Node ν β)
  root : Nat
  cwd : Nat
  maxLinks : Nat

namespace FileSystem

def place {β : Type v} (blank : β) (content : List β) (offset : Nat) (bytes : List β) : List β :=
  if bytes.isEmpty then content
  else
    content.take offset ++ List.replicate (offset - content.length) blank ++ bytes ++
      content.drop (offset + bytes.length)

/-- One and the same byte, written again and again within and behind a stretch of it. -/
theorem place_replicate {β : Type v} (blank x : β) {base : List β} {offset : Nat} (stretch n : Nat)
    (low : base.length ≤ offset) (high : offset ≤ base.length + stretch) :
    place blank (base ++ List.replicate stretch x) offset (List.replicate n x) =
      base ++ List.replicate (if n = 0 then stretch else max stretch (offset - base.length + n)) x := by
  unfold place
  by_cases none : n = 0
  · simp [none]
  · have some_ : (List.replicate n x).isEmpty = false := by simp [none]
    rw [if_neg (by simp [some_]), if_neg none]
    obtain ⟨inside, rfl⟩ : ∃ inside, offset = base.length + inside := ⟨offset - base.length, by omega⟩
    have before : (base ++ List.replicate stretch x).take (base.length + inside) = base ++ List.replicate inside x := by
      rw [List.take_length_add_append, List.take_replicate, Nat.min_eq_left (by omega)]
    have after : (base ++ List.replicate stretch x).drop (base.length + inside + n) =
        List.replicate (stretch - (inside + n)) x := by
      rw [Nat.add_assoc, List.drop_length_add_append, List.drop_replicate]
    have noGap : base.length + inside - (base ++ List.replicate stretch x).length = 0 := by
      rw [List.length_append, List.length_replicate]
      omega
    rw [before, List.length_replicate, after, noGap, List.replicate_zero, List.append_nil, List.append_assoc,
      List.append_assoc, List.replicate_append_replicate, List.replicate_append_replicate]
    congr 2
    omega

variable {ν : Type u} {β : Type v} (fs : FileSystem ν β)

def entry (d : Nat) (name : ν) : Option Nat :=
  match fs.node d with
  | some (.dir entries) => entries name
  | _ => none

def isDir (d : Nat) : Bool :=
  match fs.node d with
  | some (.dir _) => true
  | _ => false

def follow (i : Nat) : Option (Option (Path ν)) :=
  (fs.node i).map fun node =>
    match node with
    | .link target => some target
    | .file _ | .dir _ => none

def content (i : Nat) : Option (List β) :=
  match fs.node i with
  | some (.file content) => some content
  | _ => none

inductive Scan (ν : Type u) where
  | target (t : Target ν)
  | link (d : Nat) (target : Path ν) (rest : List ν)

def scan (d : Nat) : List ν → Option (Scan ν)
  | [] => (fs.follow d).map fun _ => .target (.found d)
  | name :: rest =>
    match fs.entry d name with
    | some i =>
      match fs.follow i with
      | some (some target) => some (.link d target rest)
      | some none => scan i rest
      | none => none
    | none => if fs.isDir d && rest.isEmpty then some (.target (.missing d name)) else none

def base (d : Nat) (path : Path ν) : Nat := if path.absolute then fs.root else d

def walk : Nat → Nat → List ν → Option (Target ν)
  | 0, d, names =>
    match fs.scan d names with
    | some (.target t) => some t
    | _ => none
  | links + 1, d, names =>
    match fs.scan d names with
    | some (.target t) => some t
    | some (.link d target rest) => walk links (fs.base d target) (target.names ++ rest)
    | none => none

def lookup (path : Path ν) : Option (Target ν) :=
  if path.names.isEmpty && !path.absolute then none
  else fs.walk fs.maxLinks (fs.base fs.cwd path) path.names

def read (path : Path ν) : Option (List β) :=
  match fs.lookup path with
  | some (.found i) => fs.content i
  | _ => none

def setContent (i : Nat) (content : List β) : FileSystem ν β :=
  { fs with node := Function.update fs.node i (some (.file content)) }

def create [DecidableEq ν] (d : Nat) (name : ν) (i : Nat) : FileSystem ν β :=
  { fs with
    node := Function.update (Function.update fs.node i (some (.file []))) d
      (some (.dir (Function.update (fs.entry d) name (some i)))) }

theorem walk_target {fs : FileSystem ν β} {d : Nat} {names : List ν} {t : Target ν}
    (scanned : fs.scan d names = some (.target t)) (links : Nat) : fs.walk links d names = some t := by
  cases links with
  | zero => rw [walk, scanned]
  | succ links => rw [walk, scanned]

theorem walk_link {fs : FileSystem ν β} {d d' : Nat} {names rest : List ν} {target : Path ν}
    (scanned : fs.scan d names = some (.link d' target rest)) (links : Nat) :
    fs.walk (links + 1) d names = fs.walk links (fs.base d' target) (target.names ++ rest) := by
  rw [walk, scanned]

/-- A walk ends with its first scan, or goes on behind a symbolic link. -/
theorem walk_some {fs : FileSystem ν β} {links d : Nat} {names : List ν} {t : Target ν}
    (walked : fs.walk links d names = some t) :
    fs.scan d names = some (.target t) ∨ ∃ links' d' target rest, links = links' + 1 ∧
      fs.scan d names = some (.link d' target rest) ∧
      fs.walk links' (fs.base d' target) (target.names ++ rest) = some t := by
  cases links with
  | zero =>
    rw [walk] at walked
    split at walked
    · rename_i scanned
      cases walked
      exact .inl scanned
    · cases walked
  | succ links =>
    rw [walk] at walked
    split at walked
    · rename_i scanned
      cases walked
      exact .inl scanned
    · rename_i d' target rest scanned
      exact .inr ⟨links, d', target, rest, rfl, scanned, walked⟩
    · cases walked

theorem read_of_found {fs : FileSystem ν β} {path : Path ν} {i : Nat} (found : fs.lookup path = some (.found i)) :
    fs.read path = fs.content i := by
  rw [read, found]

theorem node_of_scan {fs : FileSystem ν β} {d i : Nat} {names : List ν}
    (scanned : fs.scan d names = some (.target (.found i))) : fs.node i ≠ none := by
  induction names generalizing d with
  | nil =>
    obtain ⟨target, kind, same⟩ := Option.map_eq_some_iff.mp scanned
    cases same
    intro nothing
    rw [follow, nothing] at kind
    cases kind
  | cons name rest ih =>
    rw [scan] at scanned
    split at scanned
    · split at scanned
      · cases scanned
      · exact ih scanned
      · cases scanned
    · split at scanned
      · cases scanned
      · cases scanned

theorem node_of_walk {fs : FileSystem ν β} {links d i : Nat} {names : List ν}
    (walked : fs.walk links d names = some (.found i)) : fs.node i ≠ none := by
  induction links using Nat.strongRecOn generalizing d names with
  | _ links ih =>
    rcases walk_some walked with scanned | ⟨fewer, d', target, rest, rfl, scanned, walked⟩
    · exact node_of_scan scanned
    · exact ih fewer (Nat.lt_succ_self _) walked

theorem node_of_found {fs : FileSystem ν β} {path : Path ν} {i : Nat} (found : fs.lookup path = some (.found i)) :
    fs.node i ≠ none := by
  rw [lookup] at found
  split at found
  · cases found
  · exact node_of_walk found

structure Extends (fs fs' : FileSystem ν β) : Prop where
  entry : ∀ d name i, fs.entry d name = some i → fs'.entry d name = some i
  follow : ∀ i target, fs.follow i = some target → fs'.follow i = some target
  root : fs'.root = fs.root
  cwd : fs'.cwd = fs.cwd
  maxLinks : fs'.maxLinks = fs.maxLinks

section Extends

variable {fs} {fs' : FileSystem ν β}

theorem scan_extends (extends_ : Extends fs fs') {d : Nat} {names : List ν} {r : Scan ν}
    (scanned : fs.scan d names = some r) (present : ∀ d name, r ≠ .target (.missing d name)) :
    fs'.scan d names = some r := by
  induction names generalizing d with
  | nil =>
    obtain ⟨target, kind, same⟩ := Option.map_eq_some_iff.mp scanned
    rw [scan, extends_.follow d target kind, ← same]
    rfl
  | cons name rest ih =>
    rw [scan] at scanned ⊢
    cases here : fs.entry d name with
    | none =>
      rw [here] at scanned
      dsimp only at scanned
      split at scanned
      · cases scanned
        exact absurd rfl (present d name)
      · cases scanned
    | some i =>
      rw [here] at scanned
      rw [extends_.entry d name i here]
      dsimp only at scanned ⊢
      cases kind : fs.follow i with
      | none =>
        rw [kind] at scanned
        cases scanned
      | some target =>
        rw [kind] at scanned
        rw [extends_.follow i target kind]
        cases target with
        | none => exact ih scanned
        | some path => exact scanned

theorem base_extends (extends_ : Extends fs fs') (d : Nat) (path : Path ν) : fs'.base d path = fs.base d path := by
  rw [base, base, extends_.root]

theorem walk_extends (extends_ : Extends fs fs') {links d i : Nat} {names : List ν}
    (walked : fs.walk links d names = some (.found i)) : fs'.walk links d names = some (.found i) := by
  induction links using Nat.strongRecOn generalizing d names with
  | _ links ih =>
    rcases walk_some walked with scanned | ⟨fewer, d', target, rest, rfl, scanned, walked⟩
    · exact walk_target (scan_extends extends_ scanned (by simp)) links
    · rw [walk_link (scan_extends extends_ scanned (by simp)), base_extends extends_]
      exact ih fewer (Nat.lt_succ_self _) walked

/-- A path that has led to an inode leads there for good. -/
theorem lookup_extends (extends_ : Extends fs fs') {path : Path ν} {i : Nat}
    (found : fs.lookup path = some (.found i)) : fs'.lookup path = some (.found i) := by
  rw [lookup] at found ⊢
  split at found
  · cases found
  · rename_i nonempty
    rw [if_neg nonempty, extends_.maxLinks, extends_.cwd, base_extends extends_]
    exact walk_extends extends_ found

theorem node_of_content {i : Nat} {content : List β} (present : fs.content i = some content) :
    fs.node i = some (.file content) := by
  unfold FileSystem.content at present
  split at present
  · rename_i node
    cases present
    exact node
  · cases present

@[simp] theorem content_setContent_self (fs : FileSystem ν β) (i : Nat) (content : List β) :
    (fs.setContent i content).content i = some content := by
  rw [FileSystem.content, setContent]
  dsimp only
  rw [Function.update_self]

theorem content_setContent_of_ne {i j : Nat} (apart : j ≠ i) (content : List β) :
    (fs.setContent i content).content j = fs.content j := by
  rw [FileSystem.content, FileSystem.content, setContent]
  dsimp only
  rw [Function.update_of_ne apart]

theorem extends_setContent {i : Nat} {old : List β} (present : fs.content i = some old) (content : List β) :
    Extends fs (fs.setContent i content) := by
  have file := node_of_content present
  refine ⟨?_, ?_, rfl, rfl, rfl⟩
  · intro d name j here
    have apart : d ≠ i := by
      rintro rfl
      rw [entry, file] at here
      cases here
    rw [entry, setContent]
    dsimp only
    rw [Function.update_of_ne apart]
    exact here
  · intro j target kind
    rw [follow, setContent]
    dsimp only
    by_cases same : j = i
    · subst same
      rw [follow, file] at kind
      rw [Function.update_self]
      exact kind
    · rw [Function.update_of_ne same]
      exact kind

end Extends

section Create

variable {fs} {d i : Nat}

theorem dir_of_isDir (dir : fs.isDir d = true) : fs.node d = some (.dir (fs.entry d)) := by
  unfold isDir at dir
  split at dir
  · rename_i entries node
    rw [node]
    congr 2
    funext name
    rw [entry, node]
  · cases dir

theorem ne_of_fresh (dir : fs.isDir d = true) (fresh : fs.node i = none) : i ≠ d := by
  rintro rfl
  rw [dir_of_isDir dir] at fresh
  cases fresh

variable [DecidableEq ν] {name : ν}

theorem entry_create (fs : FileSystem ν β) (d : Nat) (name : ν) (i : Nat) :
    (fs.create d name i).entry d = Function.update (fs.entry d) name (some i) := by
  funext other
  rw [entry, create]
  dsimp only
  rw [Function.update_self]

theorem node_create_of_ne {j : Nat} (dir : j ≠ d) (file : j ≠ i) : (fs.create d name i).node j = fs.node j := by
  rw [create]
  dsimp only
  rw [Function.update_of_ne dir, Function.update_of_ne file]

theorem node_create_self (apart : i ≠ d) : (fs.create d name i).node i = some (.file []) := by
  rw [create]
  dsimp only
  rw [Function.update_of_ne apart, Function.update_self]

theorem content_create_self (apart : i ≠ d) : (fs.create d name i).content i = some [] := by
  rw [content, node_create_self apart]

theorem extends_create (dir : fs.isDir d = true) (absent : fs.entry d name = none) (fresh : fs.node i = none) :
    Extends fs (fs.create d name i) := by
  have unused : ∀ j, fs.node j ≠ none → j ≠ i := by
    rintro j used rfl
    exact used fresh
  refine ⟨?_, ?_, rfl, rfl, rfl⟩
  · intro d' other j here
    by_cases same : d' = d
    · subst same
      have apart : other ≠ name := by
        rintro rfl
        rw [absent] at here
        cases here
      rw [entry_create, Function.update_of_ne apart]
      exact here
    · have used : fs.node d' ≠ none := by
        intro nothing
        rw [entry, nothing] at here
        cases here
      rw [entry, node_create_of_ne same (unused d' used)]
      exact here
  · intro j target kind
    have used : fs.node j ≠ none := by
      intro nothing
      rw [follow, nothing] at kind
      cases kind
    by_cases same : j = d
    · subst same
      rw [follow, dir_of_isDir dir] at kind
      rw [follow, create]
      dsimp only
      rw [Function.update_self]
      exact kind
    · rw [follow, node_create_of_ne same (unused j used)]
      exact kind

theorem content_create_of_ne {j : Nat} (dir : fs.isDir d = true) (apart : j ≠ i) :
    (fs.create d name i).content j = fs.content j := by
  by_cases same : j = d
  · subst same
    rw [content, content, create, dir_of_isDir dir]
    dsimp only
    rw [Function.update_self]
  · rw [content, content, node_create_of_ne same apart]

theorem scan_create {start : Nat} {names : List ν} (fresh : fs.node i = none)
    (missing : fs.scan start names = some (.target (.missing d name))) :
    fs.isDir d = true ∧ fs.entry d name = none ∧
      (fs.create d name i).scan start names = some (.target (.found i)) := by
  induction names generalizing start with
  | nil =>
    obtain ⟨target, kind, same⟩ := Option.map_eq_some_iff.mp missing
    cases same
  | cons first rest ih =>
    rw [scan] at missing ⊢
    cases here : fs.entry start first with
    | none =>
      rw [here] at missing
      dsimp only at missing
      split at missing
      · rename_i last
        cases missing
        rw [Bool.and_eq_true, List.isEmpty_iff] at last
        obtain ⟨dir, rfl⟩ := last
        have apart := ne_of_fresh dir fresh
        have kind : (fs.create d name i).follow i = some none := by
          rw [follow, node_create_self apart]
          rfl
        rw [entry_create, Function.update_self]
        dsimp only
        rw [kind]
        dsimp only
        rw [scan, kind]
        exact ⟨dir, here, rfl⟩
      · cases missing
    | some j =>
      rw [here] at missing
      dsimp only at missing
      cases kind : fs.follow j with
      | none =>
        rw [kind] at missing
        cases missing
      | some target =>
        rw [kind] at missing
        cases target with
        | some path => cases missing
        | none =>
          obtain ⟨dir, absent, found⟩ := ih missing
          have extends_ := extends_create dir absent fresh
          rw [extends_.entry start first j here]
          dsimp only
          rw [extends_.follow j none kind]
          exact ⟨dir, absent, found⟩

theorem walk_create {links start : Nat} {names : List ν} (fresh : fs.node i = none)
    (missing : fs.walk links start names = some (.missing d name)) :
    fs.isDir d = true ∧ fs.entry d name = none ∧
      (fs.create d name i).walk links start names = some (.found i) := by
  induction links using Nat.strongRecOn generalizing start names with
  | _ links ih =>
    rcases walk_some missing with scanned | ⟨fewer, d', target, rest, rfl, scanned, missing⟩
    · obtain ⟨dir, absent, found⟩ := scan_create fresh scanned
      exact ⟨dir, absent, walk_target found links⟩
    · obtain ⟨dir, absent, found⟩ := ih fewer (Nat.lt_succ_self _) missing
      have extends_ := extends_create dir absent fresh
      rw [walk_link (scan_extends extends_ scanned (by simp)), base_extends extends_]
      exact ⟨dir, absent, found⟩

theorem lookup_create {path : Path ν} (fresh : fs.node i = none)
    (missing : fs.lookup path = some (.missing d name)) :
    fs.isDir d = true ∧ fs.entry d name = none ∧ (fs.create d name i).lookup path = some (.found i) := by
  rw [lookup] at missing ⊢
  split at missing
  · cases missing
  · rename_i nonempty
    rw [if_neg nonempty]
    exact walk_create fresh missing

end Create

end FileSystem
