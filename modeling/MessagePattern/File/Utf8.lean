/-!
# UTF-8

A text in a file is a run of bytes. A character is a lead byte and up to three
continuation bytes; the lead byte says how many there are, and within which
bounds the first of them lies, which rules out overlong forms, surrogates and
code points beyond the last. What is wrong with a run is reported by a
reason and the place of the bytes at fault: a lead byte that leads nothing, the
bytes of a character up to the one that does not continue it, or a character
that the run breaks off.

A run can be decoded as a whole or as one of several pieces. In a piece, a
character that is broken off at the end is not at fault, but waits for the next
piece.
-/

namespace MessagePattern.Utf8

/-! ## Single characters -/

/-- Bounds of a byte, both included. -/
structure Bounds where
  low : Nat
  high : Nat

def Bounds.holds (b : Bounds) (byte : UInt8) : Bool :=
  b.low ≤ byte.toNat && byte.toNat ≤ b.high

/-- The bounds of a continuation byte, where nothing narrower is asked for. -/
def continuation : Bounds := ⟨0x80, 0xBF⟩

/-- What a lead byte says: its own share of the code point, and the bounds of
the bytes to come. -/
structure Lead where
  share : Nat
  follow : List Bounds

def Lead.ofByte? (byte : UInt8) : Option Lead :=
  let b := byte.toNat
  if b ≤ 0x7F then some ⟨b, []⟩
  else if 0xC2 ≤ b ∧ b ≤ 0xDF then some ⟨b - 0xC0, [continuation]⟩
  else if b = 0xE0 then some ⟨0, [⟨0xA0, 0xBF⟩, continuation]⟩
  else if b = 0xED then some ⟨0xD, [⟨0x80, 0x9F⟩, continuation]⟩
  else if 0xE1 ≤ b ∧ b ≤ 0xEF then some ⟨b - 0xE0, [continuation, continuation]⟩
  else if b = 0xF0 then some ⟨0, [⟨0x90, 0xBF⟩, continuation, continuation]⟩
  else if 0xF1 ≤ b ∧ b ≤ 0xF3 then some ⟨b - 0xF0, [continuation, continuation, continuation]⟩
  else if b = 0xF4 then some ⟨4, [⟨0x80, 0x8F⟩, continuation, continuation]⟩
  else none

inductive Reason where
  | start
  | continuation
  | ending
  deriving DecidableEq, Repr

def Reason.message : Reason → String
  | start => "invalid start byte"
  | continuation => "invalid continuation byte"
  | ending => "unexpected end of data"

/-- What stands at the start of a run of bytes. -/
inductive Head where
  /-- A character of that many bytes. -/
  | char (c : Char) (width : Nat)
  /-- A character that is broken off. -/
  | broken
  /-- That many bytes that are no part of a text. -/
  | bad (reason : Reason) (width : Nat)

/-- Reads the bytes that follow a lead byte; `code` and `width` are the code
point and the number of bytes so far. -/
def readFollow (code width : Nat) : List Bounds → List UInt8 → Head
  | [], _ => .char (Char.ofNat code) width
  | _ :: _, [] => .broken
  | b :: follow, byte :: rest =>
    if b.holds byte then readFollow (64 * code + (byte.toNat - 0x80)) (width + 1) follow rest
    else .bad .continuation width

def readHead (byte : UInt8) (rest : List UInt8) : Head :=
  match Lead.ofByte? byte with
  | none => .bad .start 1
  | some lead => readFollow lead.share 1 lead.follow rest

/-- A character that is read has at least as many bytes as were read before. -/
theorem le_width_of_readFollow {code width : Nat} {follow : List Bounds} {bytes : List UInt8}
    {c : Char} {w : Nat} (h : readFollow code width follow bytes = .char c w) : width ≤ w := by
  induction follow generalizing code width bytes with
  | nil =>
    cases h
    exact Nat.le_refl _
  | cons b follow ih =>
    cases bytes with
    | nil => cases h
    | cons byte rest =>
      unfold readFollow at h
      split at h
      · exact Nat.le_of_succ_le (ih h)
      · cases h

/-- A character has at least one byte. -/
theorem pos_width_of_readHead {byte : UInt8} {rest : List UInt8} {c : Char} {w : Nat}
    (h : readHead byte rest = .char c w) : 0 < w := by
  unfold readHead at h
  split at h
  · cases h
  · exact le_width_of_readFollow h

/-! ## Runs -/

structure Fault where
  reason : Reason
  /-- The first of the bytes. -/
  byte : UInt8
  /-- The number of bytes before it. -/
  position : Nat
  /-- The number of the bytes. -/
  width : Nat

def byteText (byte : UInt8) : String :=
  let digits := Nat.toDigits 16 byte.toNat
  String.ofList (List.replicate (2 - digits.length) '0' ++ digits)

def Fault.message (f : Fault) : String :=
  let bytes :=
    if f.width = 1 then "byte 0x" ++ byteText f.byte ++ " in position " ++ toString f.position
    else
      "bytes in position " ++ toString f.position ++ "-" ++
        toString (f.position + f.width - 1)
  "'utf-8' codec can't decode " ++ bytes ++ ": " ++ f.reason.message

/-- A decoded run: its characters and, behind them, either the bytes of a
character that waits to be continued, or a fault. -/
structure Decoded where
  chars : List Char
  waiting : List UInt8
  fault : Option Fault

/-- Whether the end of a piece may wait although it cannot be continued to a
character: the first two bytes of a surrogate, which are turned down only when
the third is there or is known to be missing. -/
def mayWait : List UInt8 → Bool
  | [lead, second] => lead.toNat == 0xED && continuation.holds second
  | _ => false

/-- Decodes bytes, `position` of which came before. In the last piece of a run
nothing waits. -/
def decode (last : Bool) (position : Nat) : List UInt8 → Decoded
  | [] => ⟨[], [], none⟩
  | byte :: rest =>
    match h : readHead byte rest with
    | .char c width =>
      have : (rest.drop (width - 1)).length < (byte :: rest).length := by
        have := pos_width_of_readHead h
        simp only [List.length_drop, List.length_cons]
        omega
      let more := decode last (position + width) (rest.drop (width - 1))
      { more with chars := c :: more.chars }
    | .broken =>
      if last then ⟨[], [], some ⟨.ending, byte, position, rest.length + 1⟩⟩
      else ⟨[], byte :: rest, none⟩
    | .bad reason width =>
      if !last && mayWait (byte :: rest) then ⟨[], byte :: rest, none⟩
      else ⟨[], [], some ⟨reason, byte, position, width⟩⟩
  termination_by bytes => bytes.length

/-- Decodes a run in pieces, with some bytes that wait from before. A piece with a
fault gives no characters at all. The place of the fault is counted from the
start of the piece, the bytes that waited included. -/
def decodePieces (waiting : List UInt8) : List (List UInt8) → List Char × Option Fault
  | [] =>
    let rest := decode true 0 waiting
    (rest.chars, rest.fault)
  | piece :: more =>
    let now := decode false 0 (waiting ++ piece)
    match now.fault with
    | some fault => ([], some fault)
    | none =>
      let (chars, fault) := decodePieces now.waiting more
      (now.chars ++ chars, fault)

def encode (text : String) : List UInt8 :=
  text.toUTF8.toList

end MessagePattern.Utf8
