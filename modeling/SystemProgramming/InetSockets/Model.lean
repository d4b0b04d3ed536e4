import SystemProgramming.Kernel
import SystemProgramming.Library.Descriptors

namespace SystemProgramming.InetSockets

open Descriptors

def AF_UNSPEC : Int := 0
def SOCK_STREAM : Int := 1
def AI_PASSIVE : Int := 1

structure Hints where
  flags : Int
  family : Int
  socktype : Int
  deriving DecidableEq

structure Candidate where
  family : Int
  socktype : Int
  protocol : Int
  addr : List Byte
  addrlen : Nat
  socket : Bool
  setsockopt : Bool
  bind : Bool
  connect : Bool

structure Socket where
  family : Int
  socktype : Int
  protocol : Int
  reuseAddr : Bool
  connected : Option (List Byte)
  bound : Option (List Byte)
  listening : Option Int
  deriving DecidableEq

inductive File (φ : Type) where
  | socket (s : Socket)
  | other (f : φ)
  deriving DecidableEq

inductive Use where
  | read
  | freed
  deriving DecidableEq, Repr

/-- `uses` lists what a call has done with its result list so far; no statement looks at it. -/
structure World (φ : Type) where
  files : Descriptors (File φ)
  uses : List Use

variable {φ : Type}

def Candidate.opened (c : Candidate) : Socket :=
  ⟨c.family, c.socktype, c.protocol, false, none, none, none⟩

namespace World

def use (w : World φ) (u : Use) : World φ := { w with uses := w.uses ++ [u] }

def install (w : World φ) (fd : Nat) (s : Socket) : World φ :=
  { w with files := w.files.install fd (.socket s) }

def close (w : World φ) (fd : Nat) : World φ := { w with files := w.files.close fd }

end World

def connectLoop : List Candidate → World φ → Option (Candidate × Nat) × World φ
  | [], w => (none, w)
  | rp :: rest, w =>
    let w := w.use .read
    if rp.socket = false then connectLoop rest w
    else
      let cfd := w.files.lowest
      let w := w.install cfd rp.opened
      if rp.connect = false then connectLoop rest (w.close cfd)
      else (some (rp, cfd), w.install cfd { rp.opened with connected := some rp.addr })

inductive Found where
  | exhausted
  | refused
  | bound (rp : Candidate) (sfd : Nat)

def passiveLoop (doListen : Bool) : List Candidate → World φ → Found × World φ
  | [], w => (.exhausted, w)
  | rp :: rest, w =>
    let w := w.use .read
    if rp.socket = false then passiveLoop doListen rest w
    else
      let sfd := w.files.lowest
      let w := w.install sfd rp.opened
      if doListen = true ∧ rp.setsockopt = false then (.refused, w.close sfd)
      else
        let opened := { rp.opened with reuseAddr := doListen }
        if rp.bind = true then
          (.bound rp sfd, w.install sfd { opened with bound := some rp.addr })
        else passiveLoop doListen rest (w.close sfd)

structure Result (φ : Type) where
  returned : Int
  addrlen : Option Nat
  world : World φ

variable (getaddrinfo : Option String → String → Hints → Option (List Candidate))

/-- `garbage` is what the uninitialised `result` points to; a failed `getaddrinfo` leaves it so. -/
def inetConnect (host service : String) (type : Int) (garbage : List Candidate)
    (files : Descriptors (File φ)) : Int × World φ :=
  let hints : Hints := ⟨0, AF_UNSPEC, type⟩
  let result := (getaddrinfo (some host) service hints).getD garbage
  let (found, w) := connectLoop result ⟨files, []⟩
  let w := w.use .freed
  match found with
  | none => (-1, w)
  | some (_, cfd) => (cfd, w)

/-- `addrlen` is what the pointer of that name points to, and `listen` whether that call succeeds. -/
def inetPassiveSocket (service : String) (type : Int) (addrlen : Option Nat) (doListen : Bool)
    (backlog : Int) (listen : Bool) (files : Descriptors (File φ)) : Result φ :=
  let hints : Hints := ⟨AI_PASSIVE, AF_UNSPEC, type⟩
  match getaddrinfo none service hints with
  | none => ⟨-1, addrlen, ⟨files, []⟩⟩
  | some result =>
    match passiveLoop doListen result ⟨files, []⟩ with
    | (.refused, w) => ⟨-1, addrlen, w.use .freed⟩
    | (.exhausted, w) => ⟨-1, addrlen, w.use .freed⟩
    | (.bound rp sfd, w) =>
      if doListen = true ∧ listen = false then ⟨-1, addrlen, w.use .freed⟩
      else
        let w :=
          if doListen = true then
            w.install sfd { rp.opened with
              reuseAddr := true, bound := some rp.addr, listening := some backlog }
          else w
        match addrlen with
        | some _ => ⟨sfd, some rp.addrlen, (w.use .read).use .freed⟩
        | none => ⟨sfd, none, w.use .freed⟩

def inetListen (service : String) (backlog : Int) (addrlen : Option Nat) (listen : Bool)
    (files : Descriptors (File φ)) : Result φ :=
  inetPassiveSocket getaddrinfo service SOCK_STREAM addrlen true backlog listen files

def inetBind (service : String) (type : Int) (addrlen : Option Nat) (listen : Bool)
    (files : Descriptors (File φ)) : Result φ :=
  inetPassiveSocket getaddrinfo service type addrlen false 0 listen files

end SystemProgramming.InetSockets
