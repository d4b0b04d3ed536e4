import SystemProgramming.FileServer.Moves
import SystemProgramming.Library.Parties

namespace SystemProgramming.FileServer

open Transition

variable {files : List Byte → Option (List Byte)} {argv : Nat → List Byte} {qbytes : Nat}

def ClientPc.Unsent (pc : ClientPc) : Prop := pc = .msgget ∨ pc = .atexit ∨ pc = .request

def ServerPc.held : ServerPc → List RequestMsg
  | .fork req => [req]
  | _ => []

def State.pending (s : State) : List RequestMsg := s.server.held ++ s.serverQueue.getD []

structure Dispatch (argv : Nat → List Byte) (s : State) : Prop where
  asked : ∀ req ∈ s.pending,
    req = request argv req.clientId ∧ ¬ (s.clients req.clientId).pc.Unsent
  distinct : (s.pending.map (·.clientId)).Nodup
  served : ∀ pid k, s.children pid = some k →
    k.req = request argv k.req.clientId ∧ ¬ (s.clients k.req.clientId).pc.Unsent ∧
      k.req.clientId ∉ s.pending.map (·.clientId)
  unique : ∀ pid other k k', s.children pid = some k → s.children other = some k' →
    k.req.clientId = k'.req.clientId → pid = other

theorem initial_children (pid : Nat) (k : Child) : initial.children pid ≠ some k :=
  Option.some_ne_none k ∘ Eq.symm

theorem dispatch_initial : Dispatch argv initial := by
  refine ⟨?_, ?_, ?_, ?_⟩
  · simp [State.pending, ServerPc.held, initial]
  · simp [State.pending, ServerPc.held, initial]
  · intro pid k present
    exact absurd present (initial_children pid k)
  · intro pid other k k' present
    exact absurd present (initial_children pid k)

theorem setChild_some {s : State} {pid other : Nat} {k l : Child}
    (present : (s.setChild pid k).children other = some l) :
    (other = pid ∧ l = k) ∨ (other ≠ pid ∧ s.children other = some l) :=
  Parties.update_some present

theorem Dispatch.frame {s t : State} (dispatch : Dispatch argv s)
    (pending : t.pending.Sublist s.pending)
    (sent : ∀ id, ¬ (s.clients id).pc.Unsent → ¬ (t.clients id).pc.Unsent)
    (children : ∀ pid k', t.children pid = some k' → ∃ k, s.children pid = some k ∧ k'.req = k.req) :
    Dispatch argv t := by
  have ids : (t.pending.map (·.clientId)).Sublist (s.pending.map (·.clientId)) := pending.map _
  constructor
  case asked =>
    intro req member
    obtain ⟨same, asked⟩ := dispatch.asked req (pending.subset member)
    exact ⟨same, sent _ asked⟩
  case distinct => exact dispatch.distinct.sublist ids
  case served =>
    intro pid k' present
    obtain ⟨k, before, same⟩ := children pid k' present
    obtain ⟨written, asked, absent⟩ := dispatch.served pid k before
    rw [same]
    exact ⟨written, sent _ asked, fun member => absent (ids.subset member)⟩
  case unique =>
    intro pid other k' l' first second equal
    obtain ⟨k, before, same⟩ := children pid k' first
    obtain ⟨l, before', same'⟩ := children other l' second
    exact dispatch.unique pid other k l before before' (by rw [← same, ← same', equal])

theorem ClientGoto.unsent {c : Client} {pc : ClientPc} (next : ClientGoto c pc)
    (sent : ¬ c.pc.Unsent) : ¬ pc.Unsent := by
  simp only [ClientPc.Unsent] at sent ⊢
  cases next <;> simp_all

theorem setClient_unsent {s : State} {id : Nat} {c : Client}
    (sent : ¬ (s.clients id).pc.Unsent → ¬ c.pc.Unsent) (other : Nat)
    (before : ¬ (s.clients other).pc.Unsent) : ¬ ((s.setClient id c).clients other).pc.Unsent :=
  Parties.update_rel (R := fun c d : Client => ¬ c.pc.Unsent → ¬ d.pc.Unsent) (fun _ same => same) sent
    other before

theorem serverStep_frame {s t : State} {outcome : Outcome} (taken : serverStep s outcome = some t) :
    t.children = s.children ∧ t.clients = s.clients ∧ t.queues = s.queues ∧
      t.pending.Sublist s.pending := by
  cases serverStep_moves taken with
  | took req queue at_ waiting => simp [State.pending, at_, waiting, ServerPc.held]
  | interrupted errno at_ =>
    by_cases interrupted : errno = .EINTR <;>
      simp [State.pending, at_, ServerPc.held, interrupted]
  | refused req errno at_ => simp [State.pending, at_, ServerPc.held]
  | removed at_ => simp [State.pending, at_, ServerPc.held]
  | left errno at_ => simp [State.pending, at_, ServerPc.held]

theorem forkStep_some {s t : State} {pid : Nat} {data : List Byte} {image : StackImage}
    (taken : forkStep s pid data image = some t) :
    ∃ req, s.server = .fork req ∧ s.children pid = none ∧
      t = { s with server := .receive }.setChild pid ⟨.opening, req, ⟨0, data⟩, [], image, []⟩ := by
  unfold forkStep at taken
  split at taken
  · rename_i req at_ free
    cases taken
    exact ⟨req, at_, free, rfl⟩
  · cases taken

theorem msgsnd_some {s t : State} {id : Nat} {e : Envelope} (taken : msgsnd qbytes s id e = some t) :
    ∃ queue, s.queues id = some queue ∧ queue.length + 1 ≤ qbytes ∧
      t = s.setQueue id (some (queue ++ [e])) := by
  unfold msgsnd at taken
  split at taken
  · rename_i queue present
    split at taken
    · rename_i fits
      cases taken
      have bound := fits.2.2
      rw [List.length_map] at bound
      exact ⟨queue, present, bound, rfl⟩
    · cases taken
  · cases taken

theorem childStep_some {s t : State} {pid : Nat} {outcome : Outcome}
    (taken : childStep files qbytes s pid outcome = some t) :
    ∃ k k' sent, s.children pid = some k ∧ ChildMove files k outcome k' sent ∧
      t.children = (s.setChild pid k').children ∧
      ((sent = none ∧ t = s.setChild pid k') ∨
        ∃ msg queue, sent = some msg ∧ s.queues k.req.clientId = some queue ∧
          queue.length + 1 ≤ qbytes ∧
          t = (s.setChild pid k').setQueue k.req.clientId (some (queue ++ [⟨pid, msg⟩]))) := by
  obtain ⟨k, present, rest⟩ := Option.bind_eq_some_iff.mp taken
  obtain ⟨⟨k', sent⟩, moved, sending⟩ := Option.bind_eq_some_iff.mp rest
  refine ⟨k, k', sent, present, Child.step_moves moved, ?_⟩
  cases sent with
  | none =>
    cases sending
    exact ⟨rfl, .inl ⟨rfl, rfl⟩⟩
  | some msg =>
    obtain ⟨queue, there, room, rfl⟩ := msgsnd_some sending
    exact ⟨rfl, .inr ⟨msg, queue, rfl, there, room, rfl⟩⟩

theorem clientStep_children {s t : State} {id : Nat} {outcome : Outcome}
    (taken : clientStep argv qbytes s id outcome = some t) : t.children = s.children := by
  cases clientStep_moves taken <;> rfl

theorem forkStep_dispatch {s t : State} {pid : Nat} {data : List Byte} {image : StackImage}
    (dispatch : Dispatch argv s) (taken : forkStep s pid data image = some t) : Dispatch argv t := by
  obtain ⟨req, at_, free, rfl⟩ := forkStep_some taken
  have whole : s.pending = req :: s.serverQueue.getD [] := by simp [State.pending, at_, ServerPc.held]
  obtain ⟨asked, distinct, served, unique⟩ := dispatch
  rw [whole] at asked distinct served
  rw [List.map_cons, List.nodup_cons] at distinct
  have rest : ({ s with server := ServerPc.receive }.setChild pid
      ⟨.opening, req, ⟨0, data⟩, [], image, []⟩).pending = s.serverQueue.getD [] := rfl
  constructor
  case asked => exact fun other member => asked other (List.mem_cons_of_mem _ member)
  case distinct =>
    rw [rest]
    exact distinct.2
  case served =>
    intro other k present
    rw [rest]
    rcases setChild_some present with ⟨rfl, rfl⟩ | ⟨-, before⟩
    · exact ⟨(asked req (by simp)).1, (asked req (by simp)).2, distinct.1⟩
    · obtain ⟨written, sent, absent⟩ := served other k before
      exact ⟨written, sent, fun member => absent (List.mem_cons_of_mem _ member)⟩
  case unique =>
    -- The new child serves a request that was pending, so no other child serves its client.
    have new : ∀ other k, s.children other = some k → k.req.clientId ≠ req.clientId := by
      intro other k present same
      exact (served other k present).2.2 (by rw [same]; simp)
    intro first second k k' presentFirst presentSecond same
    rcases setChild_some presentFirst with ⟨one, rfl⟩ | ⟨-, before⟩ <;>
      rcases setChild_some presentSecond with ⟨two, rfl⟩ | ⟨-, after⟩
    · rw [one, two]
    · exact absurd same.symm (new second k' after)
    · exact absurd same (new first k before)
    · exact unique first second k k' before after same

theorem childStep_dispatch {s t : State} {pid : Nat} {outcome : Outcome}
    (dispatch : Dispatch argv s) (taken : childStep files qbytes s pid outcome = some t) :
    Dispatch argv t := by
  obtain ⟨k, k', sent, present, move, children, effect⟩ := childStep_some taken
  have frame : t.pending = s.pending ∧ t.clients = s.clients := by
    rcases effect with ⟨-, rfl⟩ | ⟨msg, queue, -, -, -, rfl⟩ <;> exact ⟨rfl, rfl⟩
  obtain ⟨pending, clients⟩ := frame
  refine dispatch.frame (by rw [pending]) (fun id before => by rwa [clients]) ?_
  intro other l there
  rw [children] at there
  rcases setChild_some there with ⟨rfl, rfl⟩ | ⟨-, before⟩
  · exact ⟨k, present, move.req⟩
  · exact ⟨l, before, rfl⟩

theorem clientStep_dispatch {s t : State} {id : Nat} {outcome : Outcome}
    (dispatch : Dispatch argv s) (taken : clientStep argv qbytes s id outcome = some t) :
    Dispatch argv t := by
  cases clientStep_moves taken
  case goto pc next =>
    exact dispatch.frame (.refl _) (setClient_unsent next.unsent) (fun _ k' there => ⟨k', there, rfl⟩)
  case created at_ fresh =>
    exact dispatch.frame (.refl _) (setClient_unsent (fun sent => absurd (.inl at_) sent))
      (fun _ k' there => ⟨k', there, rfl⟩)
  case receivedFirst e queue at_ head =>
    refine dispatch.frame (.refl _) (setClient_unsent fun _ => ?_) (fun _ k' there => ⟨k', there, rfl⟩)
    unfold Client.first
    split <;> simp [ClientPc.Unsent]
  case receivedNext e queue at_ head =>
    exact dispatch.frame (.refl _) (setClient_unsent fun _ => by simp [Client.next, ClientPc.Unsent])
      (fun _ k' there => ⟨k', there, rfl⟩)
  case removed pc next =>
    exact dispatch.frame (.refl _) (setClient_unsent next.unsent) (fun _ k' there => ⟨k', there, rfl⟩)
  case requested queue at_ present =>
    have grown : ({ s.setClient id { s.clients id with pc := .receiveFirst } with
        serverQueue := some (queue ++ [request argv id]) } : State).pending =
          s.pending ++ [request argv id] := by
      simp [State.pending, State.setClient, present]
    have unsent : (s.clients id).pc.Unsent := .inr (.inr at_)
    have new : id ∉ s.pending.map (·.clientId) := by
      intro member
      obtain ⟨req, pending, same⟩ := List.mem_map.mp member
      exact (dispatch.asked req pending).2 (by rw [same]; exact unsent)
    have sent : ∀ other, ¬ (s.clients other).pc.Unsent →
        ¬ ((s.setClient id { s.clients id with pc := .receiveFirst }).clients other).pc.Unsent :=
      setClient_unsent fun before => absurd unsent before
    constructor
    case asked =>
      intro req member
      rw [grown, List.mem_append, List.mem_singleton] at member
      rcases member with old | rfl
      · exact ⟨(dispatch.asked req old).1, sent _ (dispatch.asked req old).2⟩
      · exact ⟨rfl, by simp [State.setClient, request, ClientPc.Unsent]⟩
    case distinct =>
      rw [grown, List.map_append, List.nodup_append]
      refine ⟨dispatch.distinct, by simp, ?_⟩
      intro first before second after equal
      rw [List.map_singleton, List.mem_singleton] at after
      rw [equal, after] at before
      exact new before
    case served =>
      intro pid k there
      obtain ⟨written, asked, absent⟩ := dispatch.served pid k there
      refine ⟨written, sent _ asked, ?_⟩
      rw [grown, List.map_append, List.mem_append, List.map_singleton, List.mem_singleton]
      rintro (old | same)
      · exact absent old
      · have other : k.req.clientId = id := same
        rw [other] at asked
        exact asked unsent
    case unique => exact dispatch.unique

theorem step_dispatch {s t : State} {action : Action} (dispatch : Dispatch argv s)
    (taken : step files argv qbytes s action = some t) : Dispatch argv t := by
  cases action with
  | server outcome =>
    obtain ⟨children, clients, queues, pending⟩ := serverStep_frame taken
    refine dispatch.frame pending (fun id before => by rwa [clients]) ?_
    intro pid k there
    rw [children] at there
    exact ⟨k, there, rfl⟩
  | fork pid data image => exact forkStep_dispatch dispatch taken
  | child pid outcome => exact childStep_dispatch dispatch taken
  | client id outcome => exact clientStep_dispatch dispatch taken

end SystemProgramming.FileServer
