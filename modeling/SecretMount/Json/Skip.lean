import SecretMount.Json.Number
import SecretMount.Json.Quoted

/-!
# Passing over a JSON value

* `Json.skip` : what follows the value at the start of a text. Only the grammar of the value is
  checked: its numbers may be of any size, its strings may hold halves of surrogate pairs and lists
  may be nested to any depth.

The lists and objects that are open are kept in a list, the innermost first.
-/

namespace SecretMount.Json

/-- Space, line feed, tab and carriage return. -/
def isSpace (b : UInt8) : Bool := b == 32 || b == 10 || b == 9 || b == 13

def dropSpace (s : Bytes) : Bytes := s.dropWhile isSpace

/-- What follows the letters `word`. -/
def readWord (word : Bytes) (s : Bytes) : Except Stop Bytes :=
  match word, s with
  | [], s => .ok s
  | _ :: _, [] => stopBefore .endInValue []
  | a :: word, b :: s => if a = b then readWord word s else stopBefore .expectedWord s

/-- What is open around the place of the reader. -/
inductive Frame where
  | list
  | object
deriving DecidableEq, Repr

def Frame.closing : Frame → UInt8
  | .list => 93
  | .object => 125

/-- Passes over the value at the start of `b :: r` when it is neither a list nor an object. -/
def skipLeaf (b : UInt8) (r : Bytes) : Except Stop Bytes :=
  if b = 110 then readWord [117, 108, 108] r
  else if b = 116 then readWord [114, 117, 101] r
  else if b = 102 then readWord [97, 108, 115, 101] r
  else if b = 34 then (skipString r).map Prod.snd
  else if b = 45 then (NumberToken.read true r).map Prod.snd
  else if (digit? b).isSome then (NumberToken.read false (b :: r)).map Prod.snd
  else stopBehind .expectedValue (b :: r)

/-- Passes over a key and its colon. -/
def skipKey (s : Bytes) : Except Stop Bytes :=
  match dropSpace s with
  | [] => stopBefore .endInObject []
  | 34 :: r => do
    let (_, r) ← skipString r
    match dropSpace r with
    | [] => stopBefore .endInObject []
    | 58 :: r => return r
    | r => stopBehind .expectedColon r
  | r => stopBehind .keyNotString r

mutual

/-- Passes over a value and over the rest of what is open around it. -/
def skipFrom : Nat → List Frame → Bytes → Except Stop Bytes
  | 0, _, s => stopBefore .endInValue s
  | fuel + 1, frames, s =>
    match dropSpace s with
    | [] => stopBefore .endInValue []
    | 91 :: r => skipOpened fuel .list frames r
    | 123 :: r => skipOpened fuel .object frames r
    | b :: r => do
      let r ← skipLeaf b r
      skipBehind fuel frames r

/-- Passes over the rest of a frame that is just opened. -/
def skipOpened : Nat → Frame → List Frame → Bytes → Except Stop Bytes
  | 0, _, _, s => stopBefore .endInValue s
  | fuel + 1, frame, frames, s =>
    match dropSpace s with
    | [] => stopBefore .endInValue []
    | b :: r =>
      if b = frame.closing then skipBehind fuel frames r
      else match frame with
        | .list => skipFrom fuel (.list :: frames) s
        | .object => do
          let r ← skipKey s
          skipFrom fuel (.object :: frames) r

/-- Passes over what is left behind a value. -/
def skipBehind : Nat → List Frame → Bytes → Except Stop Bytes
  | 0, _, s => stopBefore .endInValue s
  | _ + 1, [], s => .ok s
  | fuel + 1, frame :: frames, s =>
    match dropSpace s with
    | [] => stopBefore .endInValue []
    | b :: r =>
      if b = frame.closing then skipBehind fuel frames r
      else if b = 44 then
        match frame with
        | .list => skipFrom fuel (.list :: frames) r
        | .object => do
          let r ← skipKey r
          skipFrom fuel (.object :: frames) r
      else stopBehind .expectedCommaOrBracket (b :: r)

end

/-- Passes over the value at the start of `s`. Each step but the last passes over a byte. -/
def skip (s : Bytes) : Except Stop Bytes := skipFrom (2 * s.length + 2) [] s

end SecretMount.Json
