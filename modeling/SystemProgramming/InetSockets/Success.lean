import SystemProgramming.InetSockets.Accounting

namespace SystemProgramming.InetSockets

open Descriptors

variable {φ : Type} (getaddrinfo : Option String → String → Hints → Option (List Candidate))

structure Delivered (files : Descriptors (File φ)) (returned : Int) (w : World φ) (s : Socket) :
    Prop where
  number : ∃ fd : Nat, returned = fd ∧ files.file fd = none ∧ w.files.file fd = some (.socket s) ∧
    ∀ other, other ≠ fd → w.files.file other = files.file other

structure Connects (candidates : List Candidate) (files : Descriptors (File φ)) (returned : Int)
    (w : World φ) : Prop where
  success : 0 ≤ returned → ∃ c, candidates.find? (fun c => c.socket && c.connect) = some c ∧
    Delivered files returned w c.connected
  failure : returned < 0 → returned = -1 ∧ ∀ c ∈ candidates, (c.socket && c.connect) = false

structure Binds (candidates : List Candidate) (files : Descriptors (File φ)) (addrlen : Option Nat)
    (doListen : Bool) (backlog : Int) (result : Result φ) : Prop where
  success : 0 ≤ result.returned → ∃ c, candidates.find? (fun c => c.socket && c.bind) = some c ∧
    result.addrlen = addrlen.map (fun _ => c.addrlen) ∧
    Delivered files result.returned result.world
      (c.bound doListen (if doListen = true then some backlog else none))

theorem Opened.delivered {files : Descriptors (File φ)} {v : World φ} {fd : Nat} {s : Socket}
    (opened : Opened ⟨files, []⟩ v fd s) : Delivered files fd v s :=
  ⟨fd, rfl, opened.fresh, opened.file, opened.others⟩

/-- What is done with the list leaves the files alone. -/
theorem Delivered.use {files : Descriptors (File φ)} {returned : Int} {v : World φ} {s : Socket}
    (delivered : Delivered files returned v s) (u : Use) : Delivered files returned (v.use u) s :=
  ⟨delivered.number⟩

theorem inetConnect_connects {candidates : List Candidate} (host service : String) (type : Int)
    (garbage : List Candidate) (files : Descriptors (File φ))
    (resolved : getaddrinfo (some host) service ⟨0, AF_UNSPEC, type⟩ = some candidates) :
    Connects candidates files (inetConnect getaddrinfo host service type garbage files).1
      (inetConnect getaddrinfo host service type garbage files).2 := by
  unfold inetConnect
  simp only [resolved, Option.getD_some]
  have ends := connectLoop_ends candidates (⟨files, []⟩ : World φ)
  generalize connectLoop candidates (⟨files, []⟩ : World φ) = result at ends
  cases ends with
  | exhausted nothing kept =>
    constructor
    case success =>
      intro impossible
      cases impossible
    case failure =>
      intro _
      refine ⟨rfl, ?_⟩
      intro c member
      exact (Bool.not_eq_true _).mp (List.find?_eq_none.mp nothing c member)
  | stopped c cfd found opened =>
    constructor
    case success => exact fun _ => ⟨c, found, opened.delivered.use .freed⟩
    case failure =>
      intro negative
      have impossible : (cfd : Int) < 0 := negative
      omega

theorem inetPassiveSocket_binds {candidates : List Candidate} (service : String) (type : Int)
    (addrlen : Option Nat) (doListen : Bool) (backlog : Int) (listen : Bool)
    (files : Descriptors (File φ))
    (resolved : getaddrinfo none service ⟨AI_PASSIVE, AF_UNSPEC, type⟩ = some candidates) :
    Binds candidates files addrlen doListen backlog
      (inetPassiveSocket getaddrinfo service type addrlen doListen backlog listen files) := by
  unfold inetPassiveSocket
  simp only [resolved]
  have ends := passiveLoop_ends doListen candidates (⟨files, []⟩ : World φ)
  generalize passiveLoop doListen candidates (⟨files, []⟩ : World φ) = result at ends
  constructor
  cases ends with
  | exhausted never kept | refused never kept =>
    intro impossible
    cases impossible
  | @bound v c sfd comes found opened =>
    dsimp only
    by_cases deaf : doListen = true ∧ listen = false
    · rw [if_pos deaf]
      intro impossible
      cases impossible
    · rw [if_neg deaf]
      intro _
      refine ⟨c, found, ?_⟩
      have ready : Opened ⟨files, []⟩ (if doListen = true then v.install sfd (c.bound true (some backlog))
          else v) sfd (c.bound doListen (if doListen = true then some backlog else none)) := by
        cases doListen with
        | true => exact opened.install _
        | false => exact opened
      cases addrlen with
      | none => exact ⟨rfl, ready.delivered.use .freed⟩
      | some length => exact ⟨rfl, (ready.delivered.use .read).use .freed⟩

/-- The descriptor that a successful call returns is the socket of the first candidate that works, and
    nothing else stays open; `inetConnect` fails only where no candidate works. -/
theorem first_candidate (files : Descriptors (File φ)) :
    (∀ host service type garbage candidates,
      getaddrinfo (some host) service ⟨0, AF_UNSPEC, type⟩ = some candidates →
        Connects candidates files (inetConnect getaddrinfo host service type garbage files).1
          (inetConnect getaddrinfo host service type garbage files).2) ∧
    ∀ service type addrlen doListen backlog listen candidates,
      getaddrinfo none service ⟨AI_PASSIVE, AF_UNSPEC, type⟩ = some candidates →
        Binds candidates files addrlen doListen backlog
          (inetPassiveSocket getaddrinfo service type addrlen doListen backlog listen files) := by
  constructor
  · intro host service type garbage candidates resolved
    exact inetConnect_connects getaddrinfo host service type garbage files resolved
  · intro service type addrlen doListen backlog listen candidates resolved
    exact inetPassiveSocket_binds getaddrinfo service type addrlen doListen backlog listen files resolved

def twoCandidates : List Candidate :=
  [⟨10, 1, 6, [0, 1], 28, true, true, false, false⟩, ⟨2, 1, 6, [127, 0, 0, 1], 16, true, true, true, true⟩]

theorem first_candidate_twoCandidates :
    (∃ c, twoCandidates.find? (fun c => c.socket && c.connect) = some c ∧
      Delivered noFiles 0 (inetConnect (fun _ _ _ => some twoCandidates) "host" "echo" 1 [] noFiles).2
        c.connected) ∧
    ∃ c, twoCandidates.find? (fun c => c.socket && c.bind) = some c ∧
      (inetPassiveSocket (fun _ _ _ => some twoCandidates) "echo" 1 (some 0) true 5 true
        noFiles).addrlen = some c.addrlen ∧
      Delivered noFiles 0 (inetPassiveSocket (fun _ _ _ => some twoCandidates) "echo" 1 (some 0) true 5
        true noFiles).world (c.bound true (some 5)) := by
  have both := first_candidate (fun _ _ _ => some twoCandidates) noFiles
  constructor
  · exact (both.1 "host" "echo" 1 [] twoCandidates rfl).success (by decide)
  · exact (both.2 "echo" 1 (some 0) true 5 true twoCandidates rfl).success (by decide)

end SystemProgramming.InetSockets
