import SystemProgramming.SimplePipe.Model

namespace SystemProgramming.SimplePipe

open CFormat (ascii)

variable {setting : Setting} {s t : State} {action : Action} {outcome : Outcome}

inductive Move (setting : Setting) (s : State) : Action → State → Prop where
  | piped (at_ : s.parent = .pipe) : Move setting s (.parent .done) (s.parentAt .fork)
  | forked (at_ : s.parent = .fork) :
      Move setting s (.parent .done) { s.parentAt .closeRead with child := some ⟨.closeWrite, setting.stack, 0⟩ }
  | closedRead (at_ : s.parent = .closeRead) : Move setting s (.parent .done) (s.parentAt .write)
  | crashed (at_ : s.parent = .write) (missing : setting.argument = none) :
      Move setting s (.parent .done) (s.parentAt .killed)
  | copied (n : Nat) (at_ : s.parent = .write) (some_ : 0 < n) (inside : n ≤ s.left.length) :
      Move setting s (.parent (.count n)) { s with left := s.left.drop n, pipe := s.pipe.put (s.left.take n) }
  | written (at_ : s.parent = .write) (given : setting.argument ≠ none) (whole : s.left = []) :
      Move setting s (.parent .done) (s.parentAt .closeWrite)
  | signalled (at_ : s.parent = .write) (more : s.left ≠ []) (unread : s.isOpen .read = false) :
      Move setting s (.parent .done) (s.parentAt .killed)
  | cutShort (at_ : s.parent = .write) (more : s.left ≠ []) (readers : s.isOpen .read = true) :
      Move setting s (.parent .done)
        ((s.printf setting.terminal (ascii "Part write.\n")).parentAt .closeWrite)
  | closedWrite (at_ : s.parent = .closeWrite) : Move setting s (.parent .done) (s.parentAt .wait)
  | waited (outcome : Outcome) (at_ : s.parent = .wait)
      (over_ : outcome = .done → s.child.any (·.pc.hasEnded) = true) :
      Move setting s (.parent outcome) (s.exit .success)
  | failed (errno : Errno) (text : String) (live : s.parent.hasEnded = false) :
      Move setting s (.parent (.error errno)) (s.fail text)
  | childClosedWrite (c : Child) (forked : s.child = some c) (at_ : c.pc = .closeWrite) :
      Move setting s (.child .done) (s.setChild { c with pc := .read })
  | childRead (c : Child) (n : Nat) (forked : s.child = some c) (at_ : c.pc = .read) (some_ : 0 < n)
      (inside : n ≤ s.pipe.inFlight.length) :
      Move setting s (.child (.count n))
        { s.setChild ⟨.write, Buffer.overwrite (s.pipe.inFlight.take n) c.buf, n⟩ with pipe := s.pipe.take n }
  | childAtEnd (c : Child) (forked : s.child = some c) (at_ : c.pc = .read) (empty : s.pipe.inFlight = [])
      (closed : s.isOpen .write = false) :
      Move setting s (.child (.count 0)) (s.setChild { c with pc := .closeRead, numRead := 0 })
  | childWrote (c : Child) (k : Nat) (forked : s.child = some c) (at_ : c.pc = .write) (fits : k ≤ c.numRead) :
      Move setting s (.child (.count k))
        { s.setChild { c with pc := .read } with stdout := s.stdout ++ c.buf.take k }
  | childUnwritten (c : Child) (errno : Errno) (forked : s.child = some c) (at_ : c.pc = .write) :
      Move setting s (.child (.error errno)) (s.setChild { c with pc := .read })
  | childClosedRead (c : Child) (forked : s.child = some c) (at_ : c.pc = .closeRead) :
      Move setting s (.child .done) (s.setChild { c with pc := .newline })
  | childEnded (c : Child) (k : Nat) (forked : s.child = some c) (at_ : c.pc = .newline) (fits : k ≤ 1) :
      Move setting s (.child (.count k))
        { s.setChild { c with pc := .exited .success } with stdout := s.stdout ++ (ascii "\n").take k }
  | childUnended (c : Child) (errno : Errno) (forked : s.child = some c) (at_ : c.pc = .newline) :
      Move setting s (.child (.error errno)) (s.setChild { c with pc := .exited .success })
  | childFailed (c : Child) (errno : Errno) (text : String) (forked : s.child = some c)
      (live : c.pc.hasEnded = false) : Move setting s (.child (.error errno)) (childFail s c text)

theorem parentWrite_moves {message : CString} (at_ : s.parent = .write) (given : setting.argument = some message)
    (taken : parentWrite setting message.val s outcome = some t) : Move setting s (.parent outcome) t := by
  have present : setting.argument ≠ none := by simp [given]
  have live : s.parent.hasEnded = false := by simp [at_, ParentPc.hasEnded]
  cases outcome with
  | count n =>
    simp only [parentWrite] at taken
    split at taken
    · rename_i copies
      cases taken
      exact .copied n at_ copies.1 copies.2.1
    · cases taken
  | error errno =>
    simp only [parentWrite] at taken
    split at taken
    · cases taken
      exact .failed errno _ live
    · cases taken
  | done =>
    simp only [parentWrite] at taken
    split at taken
    · rename_i whole
      cases taken
      exact .written at_ present whole
    · rename_i more
      split at taken
      · rename_i unread
        cases taken
        exact .signalled at_ more unread
      · rename_i readers
        split at taken
        · cases taken
          exact .cutShort at_ more (by simpa using readers)
        · cases taken

theorem parentStep_moves (taken : parentStep setting s outcome = some t) : Move setting s (.parent outcome) t := by
  unfold parentStep at taken
  split at taken
  case h_1 at_ =>
    cases taken
    exact .piped at_
  case h_3 at_ =>
    cases taken
    exact .forked at_
  case h_5 at_ =>
    cases taken
    exact .closedRead at_
  case h_7 at_ =>
    split at taken
    · rename_i given
      exact parentWrite_moves at_ given taken
    · rename_i missing
      split at taken
      · rename_i done
        subst done
        cases taken
        exact .crashed at_ missing
      · cases taken
  case h_8 at_ =>
    cases taken
    exact .closedWrite at_
  case h_10 at_ =>
    split at taken
    · rename_i ended
      cases taken
      exact .waited .done at_ (fun _ => ended)
    · cases taken
  case h_11 at_ =>
    cases taken
    exact .waited _ at_ (by simp)
  case h_12 => cases taken
  all_goals
    rename_i at_
    cases taken
    exact .failed _ _ (by simp [at_, ParentPc.hasEnded])

theorem childStep_moves {c : Child} (forked : s.child = some c) (taken : childStep s c outcome = some t) :
    Move setting s (.child outcome) t := by
  unfold childStep at taken
  split at taken
  case h_1 at_ =>
    cases taken
    exact .childClosedWrite c forked at_
  case h_3 n at_ =>
    split at taken
    · rename_i filled
      cases taken
      exact .childRead c n forked at_ filled.1 filled.2.2
    · split at taken
      · rename_i ended
        obtain ⟨rfl, empty, closed⟩ := ended
        cases taken
        exact .childAtEnd c forked at_ empty closed
      · cases taken
  case h_5 k at_ =>
    split at taken
    · rename_i fits
      cases taken
      exact .childWrote c k forked at_ fits
    · cases taken
  case h_6 at_ =>
    cases taken
    exact .childUnwritten c _ forked at_
  case h_7 at_ =>
    cases taken
    exact .childClosedRead c forked at_
  case h_9 k at_ =>
    split at taken
    · rename_i fits
      cases taken
      exact .childEnded c k forked at_ fits
    · cases taken
  case h_10 at_ =>
    cases taken
    exact .childUnended c _ forked at_
  case h_11 => cases taken
  all_goals
    rename_i at_
    cases taken
    exact .childFailed c _ _ forked (by simp [at_, ChildPc.hasEnded])

theorem step_moves (taken : step setting s action = some t) : Move setting s action t := by
  cases action with
  | parent outcome => exact parentStep_moves taken
  | child outcome =>
    obtain ⟨c, forked, moved⟩ := Option.bind_eq_some_iff.mp taken
    exact childStep_moves forked moved

end SystemProgramming.SimplePipe
