/-!
# The BLAKE3 compression function

One block of sixteen words is mixed into a chaining value of eight words.  The
counter numbers the chunks of a message; the flags tell the parts of the hash
tree apart.
-/

namespace LivePreview.Blake3

/-- Eight words: a chaining value or a digest. -/
abbrev Chain := Vector UInt32 8

/-- Sixteen words: a message block or a mixing state. -/
abbrev Block := Vector UInt32 16

def initialChain : Chain :=
  #v[0x6A09E667, 0xBB67AE85, 0x3C6EF372, 0xA54FF53A, 0x510E527F, 0x9B05688C, 0x1F83D9AB,
    0x5BE0CD19]

def rotateRight (x n : UInt32) : UInt32 :=
  (x >>> n) ||| (x <<< (32 - n))

/-- Two message words mixed into a column or a diagonal of the state. -/
def mix (v : Block) (a b c d : Fin 16) (x y : UInt32) : Block :=
  let va := v[a] + v[b] + x
  let vd := rotateRight (v[d] ^^^ va) 16
  let vc := v[c] + vd
  let vb := rotateRight (v[b] ^^^ vc) 12
  let va := va + vb + y
  let vd := rotateRight (vd ^^^ va) 8
  let vc := vc + vd
  let vb := rotateRight (vb ^^^ vc) 7
  (((v.set a va).set b vb).set c vc).set d vd

/-- One round: the four columns, then the four diagonals. -/
def round (v m : Block) : Block :=
  let v := mix v 0 4 8 12 m[0] m[1]
  let v := mix v 1 5 9 13 m[2] m[3]
  let v := mix v 2 6 10 14 m[4] m[5]
  let v := mix v 3 7 11 15 m[6] m[7]
  let v := mix v 0 5 10 15 m[8] m[9]
  let v := mix v 1 6 11 12 m[10] m[11]
  let v := mix v 2 7 8 13 m[12] m[13]
  mix v 3 4 9 14 m[14] m[15]

/-- The order in which the next round takes the message words. -/
def permute (m : Block) : Block :=
  #v[m[2], m[6], m[3], m[10], m[7], m[0], m[4], m[13], m[1], m[11], m[12], m[5], m[9], m[14],
    m[15], m[8]]

/-- A number of rounds, the message permuted between them. -/
def rounds : Nat → Block → Block → Block
  | 0, v, _ => v
  | 1, v, m => round v m
  | n + 1, v, m => rounds n (round v m) (permute m)

/-- What is fed to one compression. -/
structure Input where
  chain : Chain
  block : Block
  counter : UInt64
  /-- The number of message bytes in the block. -/
  length : UInt32
  flags : UInt32

def compress (input : Input) : Chain :=
  let h := input.chain
  let v : Block :=
    #v[h[0], h[1], h[2], h[3], h[4], h[5], h[6], h[7], initialChain[0], initialChain[1],
      initialChain[2], initialChain[3], input.counter.toUInt32, (input.counter >>> 32).toUInt32,
      input.length, input.flags]
  let v := rounds 7 v input.block
  #v[v[0] ^^^ v[8], v[1] ^^^ v[9], v[2] ^^^ v[10], v[3] ^^^ v[11], v[4] ^^^ v[12], v[5] ^^^ v[13],
    v[6] ^^^ v[14], v[7] ^^^ v[15]]

end LivePreview.Blake3
