import SystemProgramming.InetSockets.Model

namespace SystemProgramming.InetSockets

open Descriptors

variable {φ : Type}

structure Kept (w v : World φ) : Prop where
  files : ∀ fd, v.files.file fd = w.files.file fd
  reads : ∃ k, v.uses = w.uses ++ List.replicate k .read

structure Opened (w v : World φ) (fd : Nat) (s : Socket) : Prop where
  fresh : w.files.file fd = none
  file : v.files.file fd = some (.socket s)
  others : ∀ other, other ≠ fd → v.files.file other = w.files.file other
  reads : ∃ k, v.uses = w.uses ++ List.replicate k .read

theorem reads_trans {before middle after : List Use} (first : ∃ k, middle = before ++ List.replicate k .read)
    (second : ∃ k, after = middle ++ List.replicate k .read) :
    ∃ k, after = before ++ List.replicate k .read := by
  rcases first with ⟨k, rfl⟩
  rcases second with ⟨l, rfl⟩
  exact ⟨k + l, by rw [List.append_assoc, List.replicate_append_replicate]⟩

theorem Kept.refl (w : World φ) : Kept w w := ⟨fun _ => rfl, 0, by simp⟩

theorem Kept.trans {w m v : World φ} (first : Kept w m) (second : Kept m v) : Kept w v :=
  ⟨fun fd => (second.files fd).trans (first.files fd), reads_trans first.reads second.reads⟩

theorem Kept.opened {w m v : World φ} {fd : Nat} {s : Socket} (first : Kept w m)
    (second : Opened m v fd s) : Opened w v fd s where
  fresh := (first.files fd).symm.trans second.fresh
  file := second.file
  others := fun other ne => (second.others other ne).trans (first.files other)
  reads := reads_trans first.reads second.reads

theorem kept_read (w : World φ) : Kept w (w.use .read) := ⟨fun _ => rfl, 1, rfl⟩

theorem kept_closed (w : World φ) (s : Socket) :
    Kept w ((w.install w.files.lowest s).close w.files.lowest) :=
  ⟨w.files.file_reopened (.socket s), 0, by simp [World.install, World.close]⟩

theorem opened_twice (w : World φ) (first s : Socket) :
    Opened w ((w.install w.files.lowest first).install w.files.lowest s) w.files.lowest s where
  fresh := w.files.file_lowest
  file := file_install_self _ _ _
  others := by
    intro other ne
    exact (file_install_of_ne _ _ ne).trans (file_install_of_ne _ _ ne)
  reads := ⟨0, by simp [World.install]⟩

theorem Opened.install {w v : World φ} {fd : Nat} {s : Socket} (opened : Opened w v fd s) (t : Socket) :
    Opened w (v.install fd t) fd t where
  fresh := opened.fresh
  file := file_install_self _ _ _
  others := fun other ne => (file_install_of_ne _ _ ne).trans (opened.others other ne)
  reads := opened.reads

def Candidate.connects (c : Candidate) : Bool := c.socket && c.connect

def Candidate.binds (c : Candidate) : Bool := c.socket && c.bind

def Candidate.connected (c : Candidate) : Socket := { c.opened with connected := some c.addr }

inductive ConnectEnds (candidates : List Candidate) (w : World φ) :
    Option (Candidate × Nat) × World φ → Prop where
  | exhausted {v : World φ} (nothing : candidates.find? Candidate.connects = none) (kept : Kept w v) :
      ConnectEnds candidates w (none, v)
  | stopped {v : World φ} (c : Candidate) (cfd : Nat)
      (found : candidates.find? Candidate.connects = some c) (opened : Opened w v cfd c.connected) :
      ConnectEnds candidates w (some (c, cfd), v)

theorem ConnectEnds.skip {c : Candidate} {rest : List Candidate} {w m : World φ}
    {result : Option (Candidate × Nat) × World φ} (fails : c.connects = false) (kept : Kept w m)
    (ends : ConnectEnds rest m result) : ConnectEnds (c :: rest) w result := by
  have next : (c :: rest).find? Candidate.connects = rest.find? Candidate.connects :=
    List.find?_cons_of_neg (by rw [fails]; decide)
  cases ends with
  | exhausted nothing rest_kept => exact .exhausted (next.trans nothing) (kept.trans rest_kept)
  | stopped d cfd found opened => exact .stopped d cfd (next.trans found) (kept.opened opened)

theorem connectLoop_ends (candidates : List Candidate) (w : World φ) :
    ConnectEnds candidates w (connectLoop candidates w) := by
  induction candidates generalizing w with
  | nil => exact .exhausted rfl (.refl w)
  | cons c rest ih =>
    by_cases created : c.socket = false
    · rw [connectLoop, if_pos created]
      exact (ih _).skip (by simp [Candidate.connects, created]) (kept_read w)
    · by_cases refused : c.connect = false
      · simp only [connectLoop, if_neg created, if_pos refused]
        exact (ih _).skip (by simp [Candidate.connects, refused]) ((kept_read w).trans (kept_closed _ _))
      · simp only [connectLoop, if_neg created, if_neg refused]
        rw [Bool.not_eq_false] at created refused
        exact .stopped c _ (List.find?_cons_of_pos (by simp [Candidate.connects, created, refused]))
          ((kept_read w).opened (opened_twice _ _ _))

def reachesBound (doListen : Bool) : List Candidate → Bool
  | [] => false
  | c :: rest =>
    if c.socket = false then reachesBound doListen rest
    else if doListen = true ∧ c.setsockopt = false then false
    else c.bind || reachesBound doListen rest

def Candidate.bound (c : Candidate) (reuseAddr : Bool) (listening : Option Int) : Socket :=
  { c.opened with reuseAddr, bound := some c.addr, listening }

inductive PassiveEnds (doListen : Bool) (candidates : List Candidate) (w : World φ) :
    Found × World φ → Prop where
  | exhausted {v : World φ} (never : reachesBound doListen candidates = false) (kept : Kept w v) :
      PassiveEnds doListen candidates w (.exhausted, v)
  | refused {v : World φ} (never : reachesBound doListen candidates = false) (kept : Kept w v) :
      PassiveEnds doListen candidates w (.refused, v)
  | bound {v : World φ} (c : Candidate) (sfd : Nat) (comes : reachesBound doListen candidates = true)
      (found : candidates.find? Candidate.binds = some c)
      (opened : Opened w v sfd (c.bound doListen none)) :
      PassiveEnds doListen candidates w (.bound c sfd, v)

theorem PassiveEnds.skip {doListen : Bool} {c : Candidate} {rest : List Candidate} {w m : World φ}
    {result : Found × World φ} (fails : c.binds = false)
    (next : reachesBound doListen (c :: rest) = reachesBound doListen rest) (kept : Kept w m)
    (ends : PassiveEnds doListen rest m result) : PassiveEnds doListen (c :: rest) w result := by
  have found_next : (c :: rest).find? Candidate.binds = rest.find? Candidate.binds :=
    List.find?_cons_of_neg (by rw [fails]; decide)
  cases ends with
  | exhausted never rest_kept => exact .exhausted (next.trans never) (kept.trans rest_kept)
  | refused never rest_kept => exact .refused (next.trans never) (kept.trans rest_kept)
  | bound d sfd comes found opened =>
    exact .bound d sfd (next.trans comes) (found_next.trans found) (kept.opened opened)

theorem passiveLoop_ends (doListen : Bool) (candidates : List Candidate) (w : World φ) :
    PassiveEnds doListen candidates w (passiveLoop doListen candidates w) := by
  induction candidates generalizing w with
  | nil => exact .exhausted rfl (.refl w)
  | cons c rest ih =>
    by_cases created : c.socket = false
    · rw [passiveLoop, if_pos created]
      exact (ih _).skip (by simp [Candidate.binds, created]) (by rw [reachesBound, if_pos created])
        (kept_read w)
    · by_cases refused : doListen = true ∧ c.setsockopt = false
      · simp only [passiveLoop, if_neg created, if_pos refused]
        exact .refused (by rw [reachesBound, if_neg created, if_pos refused])
          ((kept_read w).trans (kept_closed _ _))
      · by_cases bound : c.bind = true
        · simp only [passiveLoop, if_neg created, if_neg refused, if_pos bound]
          refine .bound c _ (by simp [reachesBound, created, refused, bound]) ?_
            ((kept_read w).opened (opened_twice _ _ _))
          rw [Bool.not_eq_false] at created
          exact List.find?_cons_of_pos (by simp [Candidate.binds, created, bound])
        · simp only [passiveLoop, if_neg created, if_neg refused, if_neg bound]
          rw [Bool.not_eq_true] at bound
          exact (ih _).skip (by simp [Candidate.binds, bound])
            (by simp [reachesBound, created, refused, bound]) ((kept_read w).trans (kept_closed _ _))

structure Accounted (resolved : Option (List Candidate)) (files : Descriptors (File φ)) (returned : Int)
    (w : World φ) : Prop where
  closed : returned = -1 → ∀ fd, files.file fd = none → w.files.file fd = none
  freed : returned = -1 → resolved.isSome = true → w.uses.count .freed = 1
  untouched : returned = -1 → resolved = none → w.uses = []

theorem count_freed {uses : List Use} (reads : ∃ k, uses = [] ++ List.replicate k .read) :
    (uses ++ [Use.freed]).count Use.freed = 1 := by
  rcases reads with ⟨k, rfl⟩
  simp [List.count_replicate]

theorem accounted_of_success {resolved : Option (List Candidate)} {files : Descriptors (File φ)} (fd : Nat)
    (w : World φ) : Accounted resolved files fd w := by
  have positive : (fd : Int) ≠ -1 := by omega
  exact ⟨fun failed => absurd failed positive, fun failed => absurd failed positive,
    fun failed => absurd failed positive⟩

/-- A call that gives up after its loop and frees the list. -/
theorem accounted_of_kept {result : List Candidate} {files : Descriptors (File φ)} {v : World φ}
    (kept : Kept ⟨files, []⟩ v) (returned : Int) :
    Accounted (some result) files returned (v.use .freed) where
  closed := fun _ fd free => (kept.files fd).trans free
  freed := fun _ _ => count_freed kept.reads
  untouched := fun _ missing => by cases missing

variable (getaddrinfo : Option String → String → Hints → Option (List Candidate))

def Deaf (resolved : Option (List Candidate)) (doListen listen : Bool) : Prop :=
  doListen = true ∧ listen = false ∧
    ∃ result, resolved = some result ∧ reachesBound doListen result = true

/-- `inetConnect` goes on with an uninitialised `result` when `getaddrinfo` has failed. -/
theorem inetConnect_accounted_iff (host service : String) (type : Int) (garbage : List Candidate)
    (files : Descriptors (File φ)) :
    Accounted (getaddrinfo (some host) service ⟨0, AF_UNSPEC, type⟩) files
        (inetConnect getaddrinfo host service type garbage files).1
        (inetConnect getaddrinfo host service type garbage files).2 ↔
      (getaddrinfo (some host) service ⟨0, AF_UNSPEC, type⟩).isSome = true ∨
        ∃ c ∈ garbage, c.connects = true := by
  generalize resolved_eq : getaddrinfo (some host) service ⟨0, AF_UNSPEC, type⟩ = resolved
  unfold inetConnect
  simp only [resolved_eq]
  have ends := connectLoop_ends (resolved.getD garbage) (⟨files, []⟩ : World φ)
  generalize connectLoop (resolved.getD garbage) (⟨files, []⟩ : World φ) = result at ends
  cases ends with
  | stopped c cfd found opened =>
    refine iff_of_true (accounted_of_success cfd _) ?_
    cases resolved with
    | some list => exact .inl rfl
    | none => exact .inr ⟨c, List.mem_of_find?_eq_some found, List.find?_some found⟩
  | @exhausted v nothing kept =>
    cases resolved with
    | some list => exact iff_of_true (accounted_of_kept kept _) (.inl rfl)
    | none =>
      have idle : ¬ ∃ c ∈ garbage, c.connects = true := by
        intro some_works
        rcases some_works with ⟨c, member, works⟩
        exact List.find?_eq_none.mp nothing c member works
      refine iff_of_false ?_ (by simp [idle])
      intro accounted
      have nothing_done : v.uses ++ [.freed] = [] := accounted.untouched rfl rfl
      exact absurd nothing_done (List.append_ne_nil_of_right_ne_nil _ (List.cons_ne_nil _ _))

/-- `inetPassiveSocket` leaves the bound socket open when `listen` fails, and only then. -/
theorem inetPassiveSocket_accounted_iff (service : String) (type : Int) (addrlen : Option Nat)
    (doListen : Bool) (backlog : Int) (listen : Bool) (files : Descriptors (File φ)) :
    Accounted (getaddrinfo none service ⟨AI_PASSIVE, AF_UNSPEC, type⟩) files
        (inetPassiveSocket getaddrinfo service type addrlen doListen backlog listen files).returned
        (inetPassiveSocket getaddrinfo service type addrlen doListen backlog listen files).world ↔
      ¬ Deaf (getaddrinfo none service ⟨AI_PASSIVE, AF_UNSPEC, type⟩) doListen listen := by
  generalize resolved_eq : getaddrinfo none service ⟨AI_PASSIVE, AF_UNSPEC, type⟩ = resolved
  unfold inetPassiveSocket
  simp only [resolved_eq]
  cases resolved with
  | none => exact iff_of_true ⟨fun _ _ free => free, fun _ => nofun, fun _ _ => rfl⟩ (by simp [Deaf])
  | some result =>
    have ends := passiveLoop_ends doListen result (⟨files, []⟩ : World φ)
    dsimp only
    generalize passiveLoop doListen result (⟨files, []⟩ : World φ) = last at ends
    cases ends with
    | exhausted never kept | refused never kept =>
      exact iff_of_true (accounted_of_kept kept _) (by simp [Deaf, never])
    | @bound v c sfd comes found opened =>
      dsimp only
      by_cases deaf : doListen = true ∧ listen = false
      · rw [if_pos deaf]
        refine iff_of_false ?_ (not_not.mpr ⟨deaf.1, deaf.2, result, rfl, comes⟩)
        intro accounted
        have left : v.files.file sfd = none := accounted.closed rfl sfd opened.fresh
        rw [opened.file] at left
        cases left
      · rw [if_neg deaf]
        refine iff_of_true ?_ (fun all => deaf ⟨all.1, all.2.1⟩)
        cases addrlen with
        | none => exact accounted_of_success sfd _
        | some length => exact accounted_of_success sfd _

/-- What `inetConnect` gets wrong is a failed `getaddrinfo`, and what `inetPassiveSocket` gets wrong,
    and with it `inetListen` but not `inetBind`, is a failed `listen`. -/
theorem failures_accounted (files : Descriptors (File φ)) :
    (∀ host service type garbage,
      Accounted (getaddrinfo (some host) service ⟨0, AF_UNSPEC, type⟩) files
          (inetConnect getaddrinfo host service type garbage files).1
          (inetConnect getaddrinfo host service type garbage files).2 ↔
        (getaddrinfo (some host) service ⟨0, AF_UNSPEC, type⟩).isSome = true ∨
          ∃ c ∈ garbage, c.connects = true) ∧
    (∀ service type addrlen doListen backlog listen,
      Accounted (getaddrinfo none service ⟨AI_PASSIVE, AF_UNSPEC, type⟩) files
          (inetPassiveSocket getaddrinfo service type addrlen doListen backlog listen files).returned
          (inetPassiveSocket getaddrinfo service type addrlen doListen backlog listen files).world ↔
        ¬ Deaf (getaddrinfo none service ⟨AI_PASSIVE, AF_UNSPEC, type⟩) doListen listen) ∧
    (∀ service backlog addrlen listen,
      Accounted (getaddrinfo none service ⟨AI_PASSIVE, AF_UNSPEC, SOCK_STREAM⟩) files
          (inetListen getaddrinfo service backlog addrlen listen files).returned
          (inetListen getaddrinfo service backlog addrlen listen files).world ↔
        ¬ Deaf (getaddrinfo none service ⟨AI_PASSIVE, AF_UNSPEC, SOCK_STREAM⟩) true listen) ∧
    ∀ service type addrlen listen,
      Accounted (getaddrinfo none service ⟨AI_PASSIVE, AF_UNSPEC, type⟩) files
        (inetBind getaddrinfo service type addrlen listen files).returned
        (inetBind getaddrinfo service type addrlen listen files).world := by
  refine ⟨?_, ?_, ?_, ?_⟩
  · intro host service type garbage
    exact inetConnect_accounted_iff getaddrinfo host service type garbage files
  · intro service type addrlen doListen backlog listen
    exact inetPassiveSocket_accounted_iff getaddrinfo service type addrlen doListen backlog listen files
  · intro service backlog addrlen listen
    exact inetPassiveSocket_accounted_iff getaddrinfo service SOCK_STREAM addrlen true backlog listen files
  · intro service type addrlen listen
    apply (inetPassiveSocket_accounted_iff getaddrinfo service type addrlen false 0 listen files).mpr
    intro deaf
    cases deaf.1

def noFiles : Descriptors (File String) := ⟨fun _ => none, 0, fun _ _ => rfl⟩

def loopback : Candidate := ⟨2, 1, 6, [127, 0, 0, 1], 16, true, true, true, true⟩

/-- The name cannot be resolved, or `listen` fails. -/
theorem failures_unaccounted :
    (¬ ∀ (getaddrinfo : Option String → String → Hints → Option (List Candidate)) garbage,
      Accounted (getaddrinfo (some "host") "echo" ⟨0, AF_UNSPEC, SOCK_STREAM⟩) noFiles
        (inetConnect getaddrinfo "host" "echo" SOCK_STREAM garbage noFiles).1
        (inetConnect getaddrinfo "host" "echo" SOCK_STREAM garbage noFiles).2) ∧
    ¬ ∀ (getaddrinfo : Option String → String → Hints → Option (List Candidate)) listen,
      Accounted (getaddrinfo none "echo" ⟨AI_PASSIVE, AF_UNSPEC, SOCK_STREAM⟩) noFiles
        (inetListen getaddrinfo "echo" 5 none listen noFiles).returned
        (inetListen getaddrinfo "echo" 5 none listen noFiles).world := by
  constructor
  · intro always
    have nothing_done := (always (fun _ _ _ => none) []).untouched rfl rfl
    cases nothing_done
  · intro always
    have closed := (always (fun _ _ _ => some [loopback]) false).closed rfl 0 rfl
    cases closed

end SystemProgramming.InetSockets
