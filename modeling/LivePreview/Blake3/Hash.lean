import LivePreview.Blake3.Compress

/-!
# The BLAKE3 hash

A message is cut into chunks of 1024 bytes, a chunk into blocks of 64.  The blocks
of a chunk are chained; the chunks become the leaves of a binary tree, whose root
is compressed with a flag of its own.  A node is kept as the input of its last
compression, so that the root flag can still be added.
-/

namespace LivePreview.Blake3

def chunkStart : UInt32 := 1

def chunkEnd : UInt32 := 2

def parentFlag : UInt32 := 4

def rootFlag : UInt32 := 8

/-- The byte at a position, or zero past the end. -/
def byteAt (bytes : ByteArray) (i : Nat) : UInt32 :=
  (bytes.data.getD i 0).toUInt32

def wordAt (bytes : ByteArray) (i : Nat) : UInt32 :=
  byteAt bytes i ||| (byteAt bytes (i + 1) <<< 8) ||| (byteAt bytes (i + 2) <<< 16) |||
    (byteAt bytes (i + 3) <<< 24)

def blockAt (bytes : ByteArray) (start : Nat) : Block :=
  Vector.ofFn fun i => wordAt bytes (start + 4 * i.val)

/-- The last compression of a chunk, from the block at `start` on, where `length`
    bytes of the chunk are left. -/
def chunkNode (bytes : ByteArray) (counter : UInt64) (chain : Chain) (flags : UInt32)
    (start length : Nat) : Input :=
  let block := blockAt bytes start
  if length ≤ 64 then ⟨chain, block, counter, UInt32.ofNat length, flags ||| chunkEnd⟩
  else
    let next := compress ⟨chain, block, counter, 64, flags⟩
    chunkNode bytes counter next 0 (start + 64) (length - 64)
termination_by length

/-- The chunks of a message from the one with number `counter` on. -/
def chunkNodes (bytes : ByteArray) (counter : Nat) : List Input :=
  let start := 1024 * counter
  let left := bytes.size - start
  let node (length : Nat) :=
    chunkNode (bytes.extract start (start + length)) (UInt64.ofNat counter) initialChain chunkStart
      0 length
  if left ≤ 1024 then [node left] else node 1024 :: chunkNodes bytes (counter + 1)
termination_by bytes.size - 1024 * counter

def parent (left right : Input) : Input :=
  ⟨initialChain, (compress left ++ compress right).cast (by decide), 0, 64, parentFlag⟩

/-- The nodes above a level, from left to right; an odd last node moves up as it is. -/
def nextLevel : List Input → List Input
  | left :: right :: rest => parent left right :: nextLevel rest
  | rest => rest

theorem nextLevel_length (nodes : List Input) :
    (nextLevel nodes).length ≤ (nodes.length + 1) / 2 := by
  fun_induction nextLevel nodes with
  | case1 left right rest ih => simp only [List.length_cons] at *; omega
  | case2 rest h =>
    match rest, h with
    | [], _ => simp
    | [_], _ => simp
    | a :: b :: r, h => exact absurd rfl (h a b r)

def rootNode : List Input → Input
  | [] => ⟨initialChain, Vector.replicate 16 0, 0, 0, chunkStart ||| chunkEnd⟩
  | [node] => node
  | left :: right :: rest =>
    have : (nextLevel rest).length < rest.length + 1 := by
      have := nextLevel_length rest
      omega
    rootNode (parent left right :: nextLevel rest)
termination_by nodes => nodes.length

def hash (bytes : ByteArray) : Chain :=
  let root := rootNode (chunkNodes bytes 0)
  compress { root with flags := root.flags ||| rootFlag }

/-- The bytes of a digest, each word starting with its lowest byte. -/
def digestBytes (digest : Chain) : List UInt8 :=
  digest.toList.flatMap fun (w : UInt32) =>
    [w.toUInt8, (w >>> 8).toUInt8, (w >>> 16).toUInt8, (w >>> 24).toUInt8]

end LivePreview.Blake3
