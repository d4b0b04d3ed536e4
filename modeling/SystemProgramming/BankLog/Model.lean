import Mathlib.Data.Nat.Notation
import SystemProgramming.Library.OrderedDict
import SystemProgramming.Library.TextSearch

namespace SystemProgramming.BankLog

open TextSearch

abbrev Line := List Char

abbrev BankId := List Char

/-- Where the decimal digits of the scripts that Unicode knows begin, ten of them each. -/
def decimalZeros : List Nat :=
  [0x30, 0x660, 0x6f0, 0x7c0, 0x966, 0x9e6, 0xa66, 0xae6, 0xb66, 0xbe6, 0xc66, 0xce6, 0xd66, 0xde6, 0xe50,
    0xed0, 0xf20, 0x1040, 0x1090, 0x17e0, 0x1810, 0x1946, 0x19d0, 0x1a80, 0x1a90, 0x1b50, 0x1bb0, 0x1c40,
    0x1c50, 0xa620, 0xa8d0, 0xa900, 0xa9d0, 0xa9f0, 0xaa50, 0xabf0, 0xff10, 0x104a0, 0x10d30, 0x11066,
    0x110f0, 0x11136, 0x111d0, 0x112f0, 0x11450, 0x114d0, 0x11650, 0x116c0, 0x11730, 0x118e0, 0x11950,
    0x11c50, 0x11d50, 0x11da0, 0x16a60, 0x16ac0, 0x16b50, 0x1d7ce, 0x1d7d8, 0x1d7e2, 0x1d7ec, 0x1d7f6,
    0x1e140, 0x1e2f0, 0x1e950, 0x1fbf0]

def isDecimal (c : Char) : Bool := decimalZeros.any fun first => decide (first ≤ c.toNat ∧ c.toNat < first + 10)

def reBankId : List Char → Bool
  | ['[', a, b, c, d, ']'] => isDecimal a && isDecimal b && isDecimal c && isDecimal d
  | _ => false

def findall (line : Line) : List (List Char) := scan 6 reBankId 0 line

def bankDict : OrderedDict BankId (List Char) where
  entries :=
    [("0102".toList, "工商银行".toList),
      ("0104".toList, "中国银行".toList),
      ("0105".toList, "建设银行".toList),
      ("0106".toList, "交通银行".toList),
      ("0107".toList, "招商银行".toList),
      ("0108".toList, "浦发银行".toList),
      ("0103".toList, "农业银行".toList),
      ("0201".toList, "港中银  ".toList),
      ("0111".toList, "上海银行".toList),
      ("0109".toList, "民生银行".toList)]
  nodup := by decide

structure Marker where
  text : List Char
  erro : String

def markers : List Marker :=
  [⟨"Errno 110".toList, "连接超时"⟩,
    ⟨"Errno 104".toList, "银行端已关闭连接(Connection reset by peer)"⟩,
    ⟨"Errno 107".toList, "Transport endpoint is not connected"⟩,
    ⟨"Errno 32".toList, "Broken pipe"⟩,
    ⟨"Errno 111".toList, "Connection refused"⟩,
    ⟨"recv gcp message error".toList, "接收gcp消息失败"⟩,
    ⟨"heartbeat timeout".toList, "心跳超时"⟩,
    ⟨"send gcp data error".toList, "发送gcp消息失败"⟩]

abbrev ErroDict := OrderedDict BankId (OrderedDict String Nat)

def bankOf (line : Line) : Option BankId :=
  if 0 < find "WARNING".toList line then
    match findall line with
    | bank :: _ => some ((bank.filter (· ≠ '[')).filter (· ≠ ']'))
    | [] => none
  else none

/-- The first marker that is found; the branches behind the last one leave the dictionary as it is. -/
def erroOf (line : Line) : Option String :=
  (markers.find? fun marker => decide (0 < find marker.text line)).map Marker.erro

def addBank (erroDict : ErroDict) (bank : BankId) : ErroDict :=
  if erroDict.contains bank then erroDict else erroDict.set bank .empty

def countErro (erroDict : ErroDict) (bank : BankId) (erro : String) : ErroDict :=
  let inner := (erroDict.get? bank).getD .empty
  match inner.get? erro with
  | none => erroDict.set bank (inner.set erro 1)
  | some num => erroDict.set bank (inner.set erro (num + 1))

def readLine (erroDict : ErroDict) (line : Line) : ErroDict :=
  match bankOf line with
  | none => erroDict
  | some bank =>
    let erroDict := addBank erroDict bank
    match erroOf line with
    | none => erroDict
    | some erro => countErro erroDict bank erro

def readLog (lines : List Line) : ErroDict := lines.foldl readLine .empty

inductive CsvRow where
  | titles (bank erro num : String)
  | row (bank : List Char) (erro : String) (num : Nat)
  deriving DecidableEq, Repr

structure Report where
  rows : List CsvRow
  keyError : Option BankId
  deriving DecidableEq, Repr

def label (name : List Char) (bank : BankId) : List Char := name ++ ['('] ++ bank ++ [')']

def writeRow (report : Report) (bank : BankId) (erro : String) (num : Nat) : Report :=
  match report.keyError with
  | some _ => report
  | none =>
    match bankDict.get? bank with
    | none => { report with keyError := some bank }
    | some name => { report with rows := report.rows ++ [.row (label name bank) erro num] }

def writeReport (erroDict : ErroDict) : Report :=
  erroDict.entries.foldl
    (fun report bank => bank.2.entries.foldl
      (fun report erro => writeRow report bank.1 erro.1 erro.2) report)
    ⟨[.titles "银行" "错误名" "次数"], none⟩

def main (lines : List Line) : Report := writeReport (readLog lines)

end SystemProgramming.BankLog
