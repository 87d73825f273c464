namespace RuleFilter.Sha256

def initial : Array UInt32 := #[
  0x6a09e667, 0xbb67ae85, 0x3c6ef372, 0xa54ff53a, 0x510e527f, 0x9b05688c, 0x1f83d9ab, 0x5be0cd19]

def constants : List UInt32 := [
  0x428a2f98, 0x71374491, 0xb5c0fbcf, 0xe9b5dba5, 0x3956c25b, 0x59f111f1, 0x923f82a4, 0xab1c5ed5,
  0xd807aa98, 0x12835b01, 0x243185be, 0x550c7dc3, 0x72be5d74, 0x80deb1fe, 0x9bdc06a7, 0xc19bf174,
  0xe49b69c1, 0xefbe4786, 0x0fc19dc6, 0x240ca1cc, 0x2de92c6f, 0x4a7484aa, 0x5cb0a9dc, 0x76f988da,
  0x983e5152, 0xa831c66d, 0xb00327c8, 0xbf597fc7, 0xc6e00bf3, 0xd5a79147, 0x06ca6351, 0x14292967,
  0x27b70a85, 0x2e1b2138, 0x4d2c6dfc, 0x53380d13, 0x650a7354, 0x766a0abb, 0x81c2c92e, 0x92722c85,
  0xa2bfe8a1, 0xa81a664b, 0xc24b8b70, 0xc76c51a3, 0xd192e819, 0xd6990624, 0xf40e3585, 0x106aa070,
  0x19a4c116, 0x1e376c08, 0x2748774c, 0x34b0bcb5, 0x391c0cb3, 0x4ed8aa4a, 0x5b9cca4f, 0x682e6ff3,
  0x748f82ee, 0x78a5636f, 0x84c87814, 0x8cc70208, 0x90befffa, 0xa4506ceb, 0xbef9a3f7, 0xc67178f2]

def rotate (x n : UInt32) : UInt32 :=
  (x >>> n) ||| (x <<< (32 - n))

def bigEndian (count n : Nat) : List UInt8 :=
  (List.range count).map fun i => (n >>> (8 * (count - 1 - i))).toUInt8

def pad (message : ByteArray) : ByteArray :=
  let zeros := (119 - message.size % 64) % 64
  let tail := 0x80 :: (List.replicate zeros 0 ++ bigEndian 8 (8 * message.size))
  tail.foldl ByteArray.push message

def byteAt (bytes : ByteArray) (i : Nat) : UInt32 :=
  if h : i < bytes.size then bytes[i].toUInt32 else 0

def wordAt (bytes : ByteArray) (i : Nat) : UInt32 :=
  (byteAt bytes i <<< 24) ||| (byteAt bytes (i + 1) <<< 16) ||| (byteAt bytes (i + 2) <<< 8) |||
    byteAt bytes (i + 3)

def extend (words : Array UInt32) : Array UInt32 :=
  let back (distance : Nat) := words.getD (words.size - distance) 0
  let a := back 15
  let b := back 2
  let mixA := rotate a 7 ^^^ rotate a 18 ^^^ (a >>> 3)
  let mixB := rotate b 17 ^^^ rotate b 19 ^^^ (b >>> 10)
  words.push (back 16 + mixA + back 7 + mixB)

def schedule (bytes : ByteArray) (start : Nat) : Array UInt32 :=
  let block := ((List.range 16).map fun i => wordAt bytes (start + 4 * i)).toArray
  (List.range 48).foldl (fun words _ => extend words) block

def round (state : Array UInt32) (sum : UInt32) : Array UInt32 :=
  let word (i : Nat) := state.getD i 0
  let a := word 0
  let e := word 4
  let mixE := rotate e 6 ^^^ rotate e 11 ^^^ rotate e 25
  let choice := (e &&& word 5) ^^^ (~~~e &&& word 6)
  let first := word 7 + mixE + choice + sum
  let mixA := rotate a 2 ^^^ rotate a 13 ^^^ rotate a 22
  let majority := (a &&& word 1) ^^^ (a &&& word 2) ^^^ (word 1 &&& word 2)
  #[first + mixA + majority, a, word 1, word 2, word 3 + first, e,
    word 5, word 6]

def compress (bytes : ByteArray) (state : Array UInt32) (start : Nat) : Array UInt32 :=
  let sums := List.zipWith (· + ·) constants (schedule bytes start).toList
  Array.zipWith (· + ·) state (sums.foldl round state)

def digest (message : ByteArray) : List UInt8 :=
  let bytes := pad message
  let state := (List.range (bytes.size / 64)).foldl (fun s i => compress bytes s (64 * i)) initial
  state.toList.flatMap fun word => bigEndian 4 word.toNat

end RuleFilter.Sha256
