/-!
# Decoding UTF-8

A machine that reads one byte at a time. Between characters it owes nothing; inside a character it
knows how many bytes are owed and in which range the next one must lie, which is how overlong
forms, surrogates and values above U+10FFFF are refused at the first byte that rules them out. A
byte that cannot follow closes what was begun as one fault and is then read on its own, so a byte
below 0x80 is never swallowed. `decode?` wants no fault; `decodeLossy` shows each as U+FFFD.
-/

namespace ContractAudit.Text.Utf8

/-- Where the machine stands: nothing begun, or a character of which `owed + 1` bytes are missing,
the next one between `low` and `high`, with the bits read so far. -/
inductive State where
  | start
  | inside (owed : Nat) (low high : UInt8) (bits : Nat)

/-- What one byte settles. -/
inductive Piece where
  | char (c : Char)
  | fault

/-- A byte read between characters: what it settles and where it leads. -/
def first (b : UInt8) : List Piece × State :=
  if b < 0x80 then ([.char (Char.ofNat b.toNat)], .start)
  else if 0xC2 ≤ b ∧ b ≤ 0xDF then ([], .inside 0 0x80 0xBF (b.toNat - 0xC0))
  else if b = 0xE0 then ([], .inside 1 0xA0 0xBF 0)
  else if b = 0xED then ([], .inside 1 0x80 0x9F 0xD)
  else if 0xE1 ≤ b ∧ b ≤ 0xEF then ([], .inside 1 0x80 0xBF (b.toNat - 0xE0))
  else if b = 0xF0 then ([], .inside 2 0x90 0xBF 0)
  else if 0xF1 ≤ b ∧ b ≤ 0xF3 then ([], .inside 2 0x80 0xBF (b.toNat - 0xF0))
  else if b = 0xF4 then ([], .inside 2 0x80 0x8F 4)
  else ([.fault], .start)

def step : State → UInt8 → List Piece × State
  | .start, b => first b
  | .inside owed low high bits, b =>
    if low ≤ b ∧ b ≤ high then
      let bits := bits * 64 + (b.toNat - 0x80)
      match owed with
      | 0 => ([.char (Char.ofNat bits)], .start)
      | n + 1 => ([], .inside n 0x80 0xBF bits)
    else
      let (pieces, next) := first b
      (.fault :: pieces, next)

/-- What the end of the bytes settles: a begun character is a fault. -/
def finish : State → List Piece
  | .start => []
  | .inside .. => [.fault]

def pieces (bytes : List UInt8) : List Piece :=
  let (settled, state) := bytes.foldl (fun (done, st) b =>
    let (ps, st) := step st b
    (ps.reverse ++ done, st)) (([], .start) : List Piece × State)
  settled.reverse ++ finish state

/-- The character shown for a piece. -/
def Piece.shown : Piece → Char
  | .char c => c
  | .fault => '\uFFFD'

/-- The character of a piece that is not a fault. -/
def Piece.char? : Piece → Option Char
  | .char c => some c
  | .fault => none

/-- The text of a byte string, each fault shown as U+FFFD. -/
def decodeLossy (bytes : List UInt8) : String := String.ofList ((pieces bytes).map Piece.shown)

/-- The text of a byte string that is UTF-8 throughout. -/
def decode? (bytes : List UInt8) : Option String :=
  ((pieces bytes).mapM Piece.char?).map String.ofList

end ContractAudit.Text.Utf8
