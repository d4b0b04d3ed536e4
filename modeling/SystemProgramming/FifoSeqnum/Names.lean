import SystemProgramming.FifoSeqnum.Model
import SystemProgramming.Library.CArray
import SystemProgramming.Library.CFormat

namespace SystemProgramming.FifoSeqnum

open CFormat

def CLIENT_FIFO_TEMPLATE : Text := ascii "/tmp/seqnum_cl.%ld"

def CLIENT_FIFO_NAME_LEN : Nat := (CLIENT_FIFO_TEMPLATE.length + 1) + 20

def SERVER_FIFO : Text := ascii "/tmp/seqnum_sv"

def nameFifo (clientFifo : CArray CLIENT_FIFO_NAME_LEN) (pid : BitVec 64) : CArray CLIENT_FIFO_NAME_LEN :=
  clientFifo.snprintf CLIENT_FIFO_NAME_LEN (by decide) (format CLIENT_FIFO_TEMPLATE [pid.toInt])

/-- The array of the client is static, and the one of the server holds anything. -/
def clientPath (pid : BitVec 64) : Text := (nameFifo CArray.zeros pid).string 0

def serverPath (clientFifo : CArray CLIENT_FIFO_NAME_LEN) (pid : BitVec 64) : Text :=
  (nameFifo clientFifo pid).string 0

def fifoPath (pid : BitVec 64) : Text := ascii "/tmp/seqnum_cl." ++ decimal pid.toInt

theorem format_template (pid : BitVec 64) : format CLIENT_FIFO_TEMPLATE [pid.toInt] = fifoPath pid := by
  have expanded : format CLIENT_FIFO_TEMPLATE [pid.toInt] =
      ascii "/tmp/seqnum_cl." ++ (decimal pid.toInt ++ []) := rfl
  rw [expanded, List.append_nil]
  rfl

theorem length_fifoPath (pid : BitVec 64) : (fifoPath pid).length < CLIENT_FIFO_NAME_LEN := by
  have digits := length_decimal_le pid.le_toInt pid.toInt_lt
  have before : (ascii "/tmp/seqnum_cl.").length = 15 := rfl
  have size : CLIENT_FIFO_NAME_LEN = 39 := rfl
  rw [fifoPath, List.length_append]
  omega

theorem nul_not_mem_fifoPath (pid : BitVec 64) : 0 ∉ fifoPath pid := by
  rw [fifoPath, List.mem_append, not_or]
  exact ⟨by decide, nul_not_mem_decimal _⟩

theorem string_nameFifo (clientFifo : CArray CLIENT_FIFO_NAME_LEN) (pid : BitVec 64) :
    (nameFifo clientFifo pid).string 0 = fifoPath pid := by
  have short := length_fifoPath pid
  rw [nameFifo, format_template, CArray.string_snprintf _ _ (nul_not_mem_fifoPath pid)]
  exact List.take_of_length_le (by omega)

theorem fifoPath_injective {p q : BitVec 64} (same : fifoPath p = fifoPath q) : p = q :=
  BitVec.eq_of_toInt_eq
    (decimal_injective p.le_toInt p.toInt_lt q.le_toInt q.toInt_lt (List.append_cancel_left same))

theorem fifoPath_ne_server (pid : BitVec 64) : fifoPath pid ≠ SERVER_FIFO := by
  intro same
  have sizes := congrArg List.length same
  have before : (ascii "/tmp/seqnum_cl.").length = 15 := rfl
  have server : SERVER_FIFO.length = 14 := rfl
  rw [fifoPath, List.length_append] at sizes
  omega

/-- Both programs name a FIFO by its whole path, which tells its pid and is not the one of the server. -/
theorem paths_agree_iff (clientFifo : CArray CLIENT_FIFO_NAME_LEN) (p q : BitVec 64) :
    (format CLIENT_FIFO_TEMPLATE [p.toInt]).length < CLIENT_FIFO_NAME_LEN ∧
      clientPath p = format CLIENT_FIFO_TEMPLATE [p.toInt] ∧
      serverPath clientFifo p = format CLIENT_FIFO_TEMPLATE [p.toInt] ∧
      (clientPath p = serverPath clientFifo q ↔ p = q) ∧
      (clientPath p = clientPath q ↔ p = q) ∧
      (∀ later, serverPath clientFifo p = serverPath later q ↔ p = q) ∧
      clientPath p ≠ SERVER_FIFO ∧ serverPath clientFifo p ≠ SERVER_FIFO := by
  simp only [clientPath, serverPath, string_nameFifo, format_template]
  have apart : fifoPath p = fifoPath q ↔ p = q := ⟨fifoPath_injective, congrArg fifoPath⟩
  exact ⟨length_fifoPath p, trivial, trivial, apart, apart, fun _ => apart, fifoPath_ne_server p, fifoPath_ne_server p⟩

def pathOf (pid : Pid) : Text := clientPath (pid.signExtend 64)

theorem pathOf_injective : Function.Injective pathOf := by
  intro p q same
  have extended : p.signExtend 64 = q.signExtend 64 := by
    apply fifoPath_injective
    rw [← string_nameFifo CArray.zeros, ← string_nameFifo CArray.zeros]
    exact same
  have values := congrArg BitVec.toInt extended
  rw [BitVec.toInt_signExtend_of_le (by decide), BitVec.toInt_signExtend_of_le (by decide)] at values
  exact BitVec.eq_of_toInt_eq values

theorem pathOf_ne_server (pid : Pid) : pathOf pid ≠ SERVER_FIFO := by
  rw [pathOf, clientPath, string_nameFifo]
  exact fifoPath_ne_server _

structure Represents (files : Text → Option (List Byte)) (s : State) : Prop where
  server : files SERVER_FIFO = if s.serverFifo then some s.pipe else none
  clients : ∀ pid, files (pathOf pid) = s.fifos pid

/-- Every state is one of some file system, as no two of its FIFOs have the same path. -/
theorem exists_represents (s : State) : ∃ files, Represents files s := by
  refine ⟨Function.extend pathOf s.fifos fun _ => if s.serverFifo then some s.pipe else none, ?_, ?_⟩
  · apply Function.extend_apply'
    rintro ⟨pid, same⟩
    exact pathOf_ne_server pid same
  · exact fun pid => pathOf_injective.extend_apply _ _ pid

theorem Represents.setFifo {files : Text → Option (List Byte)} {s : State} (same : Represents files s) (pid : Pid)
    (content : Option (List Byte)) :
    Represents (Function.update files (pathOf pid) content) (s.setFifo pid content) where
  server := by
    rw [Function.update_of_ne (pathOf_ne_server pid).symm]
    exact same.server
  clients := by
    intro other
    show Function.update files (pathOf pid) content (pathOf other) = Function.update s.fifos pid content other
    by_cases here : other = pid
    · rw [here, Function.update_self, Function.update_self]
    · rw [Function.update_of_ne (pathOf_injective.ne here), Function.update_of_ne here]
      exact same.clients other

end SystemProgramming.FifoSeqnum
