import Mathlib.Data.Nat.Basic
import Uwebfilter.CStrings
import Uwebfilter.HashTable
import Uwebfilter.IntrusiveList

/-!
# uthash

The macros of `uthash.h` the daemon uses, over the memory of the elements' hash
handles: the list in application order, the buckets with their chains, and the
expansion of the buckets.  Whatever the allocations return, a hash is the list
of its elements in application order, and a search reaches one of those with
its key.
-/

namespace Uthash

open CStrings IntrusiveList

/-! ## The hash function -/

/-- Four bytes of a key, lowest first. -/
def jenWord (first second third fourth : UInt8) : UInt32 :=
  first.toUInt32 + (second.toUInt32 <<< 8) + (third.toUInt32 <<< 16) + (fourth.toUInt32 <<< 24)

/-- `HASH_JEN_MIX` -/
def hashJenMix (a b c : UInt32) : UInt32 × UInt32 × UInt32 :=
  let a := (a - b - c) ^^^ (c >>> 13)
  let b := (b - c - a) ^^^ (a <<< 8)
  let c := (c - a - b) ^^^ (b >>> 13)
  let a := (a - b - c) ^^^ (c >>> 12)
  let b := (b - c - a) ^^^ (a <<< 16)
  let c := (c - a - b) ^^^ (b >>> 5)
  let a := (a - b - c) ^^^ (c >>> 3)
  let b := (b - c - a) ^^^ (a <<< 10)
  let c := (c - a - b) ^^^ (b >>> 15)
  (a, b, c)

/-- The loop of `HASH_JEN` over twelve bytes a turn, and the bytes left over. -/
def hashJenLoop (keylen : UInt32) (i j hashv : UInt32) : Bytes → UInt32
  | k0 :: k1 :: k2 :: k3 :: k4 :: k5 :: k6 :: k7 :: k8 :: k9 :: k10 :: k11 :: rest =>
      let mixed := hashJenMix (i + jenWord k0 k1 k2 k3) (j + jenWord k4 k5 k6 k7)
        (hashv + jenWord k8 k9 k10 k11)
      hashJenLoop keylen mixed.1 mixed.2.1 mixed.2.2 rest
  | rest =>
      -- the cases of the switch fall through, so every byte there is counts
      let key := byteAt rest
      (hashJenMix (i + jenWord (key 0) (key 1) (key 2) (key 3))
        (j + jenWord (key 4) (key 5) (key 6) (key 7))
        (hashv + keylen + jenWord 0 (key 8) (key 9) (key 10))).2.2

def hashJen (key : Bytes) : Nat :=
  (hashJenLoop (UInt32.ofNat key.length) 0x9e3779b9 0x9e3779b9 0xfeedbeef key).toNat

/-! ## Tables -/

def hashInitialNumBuckets : Nat := 32
def hashInitialNumBucketsLog2 : Nat := 5
def hashBktCapacityThresh : Nat := 10

/-- The sizes of `UT_hash_bucket` and `UT_hash_table` where pointers have eight
bytes. -/
def sizeofUtHashBucket : Nat := 16
def sizeofUtHashTable : Nat := 64

/-- How a macro may fail to come to its end: it exits for want of memory, uses
an address of no object, or has not come to the end of a list. -/
inductive Stop
  | outOfMemory
  | badAddress
  | outOfFuel
  deriving DecidableEq, Repr

/-- A value of type `unsigned`, which has 32 bits. -/
def toUnsigned (value : Nat) : Nat := value % 4294967296

/-- `UT_hash_bucket` -/
structure Bucket (Cell : Type) where
  hhHead : Option Cell := none
  count : Nat := 0
  expandMult : Nat := 0

/-- `UT_hash_table`; `allocated` is the number of buckets in the block that
`buckets` points to. -/
structure Table (Cell : Type) where
  buckets : Nat → Bucket Cell
  allocated : Nat
  numBuckets : Nat
  log2NumBuckets : Nat
  numItems : Nat
  tail : Option Cell
  idealChainMaxlen : Nat
  nonidealItems : Nat
  ineffExpands : Nat
  noexpand : Bool

/-- The head of a hash, with the table its handle points to. -/
structure Root (Cell : Type) where
  head : Cell
  tbl : Table Cell

/-- The variable `head` with the handles of all cells: `prev` and `next`,
`hh_prev` and `hh_next`, the key and its hash value. -/
structure Hash (Cell : Type) where
  app : Links Cell
  chain : Links Cell
  key : Cell → Bytes
  hashv : Cell → Nat
  root : Option (Root Cell)

section Macros

variable {Cell : Type} [DecidableEq Cell]

-- the hash function `HASH_FCN`, and whether `malloc` has some bytes
variable (hashFcn : Bytes → Nat) (malloc : Nat → Bool)

/-- A cell as `memset` clears it. -/
def Hash.clearCell (cell : Cell) (hash : Hash Cell) : Hash Cell :=
  { hash with
    app := (hash.app.setNext cell none).setPrev cell none
    chain := (hash.chain.setNext cell none).setPrev cell none
    key := Function.update hash.key cell []
    hashv := Function.update hash.hashv cell 0 }

/-- `HASH_TO_BKT`, in 32 bits -/
def hashToBkt (hashv numBkts : Nat) : Nat := hashv &&& toUnsigned (numBkts + 4294967295)

def bucketAt (buckets : Nat → Bucket Cell) (allocated index : Nat) : Except Stop (Bucket Cell) :=
  if index < allocated then .ok (buckets index) else .error .badAddress

/-- What `HASH_EXPAND_BUCKETS` works on: the chains, the new buckets and the
number of cells so far that are far down in their chain. -/
structure Expansion (Cell : Type) where
  chain : Links Cell
  newBuckets : Nat → Bucket Cell
  nonidealItems : Nat

/-- The body of the inner loop of `HASH_EXPAND_BUCKETS`. -/
def expandMove (hashv : Cell → Nat) (numBuckets idealChainMaxlen : Nat) (thh : Cell)
    (expansion : Expansion Cell) : Except Stop (Expansion Cell) := do
  let bkt := hashToBkt (hashv thh) (toUnsigned (numBuckets * 2))
  let newbkt ← bucketAt expansion.newBuckets (2 * numBuckets) bkt
  let count := toUnsigned (newbkt.count + 1)
  let nonideal := decide (count > idealChainMaxlen)
  let crowded :=
    nonideal && decide (count > toUnsigned (newbkt.expandMult * idealChainMaxlen))
  let newbkt :=
    { hhHead := some thh
      count := count
      expandMult :=
        if crowded then toUnsigned (newbkt.expandMult + 1) else newbkt.expandMult }
  .ok
    { chain := expansion.chain.pushFront (expansion.newBuckets bkt).hhHead thh
      newBuckets := Function.update expansion.newBuckets bkt newbkt
      nonidealItems :=
        if nonideal then toUnsigned (expansion.nonidealItems + 1)
        else expansion.nonidealItems }

/-- The inner loop, which reads a cell's successor before it moves the cell. -/
def expandChain (hashv : Cell → Nat) (numBuckets idealChainMaxlen : Nat) :
    Nat → Option Cell → Expansion Cell → Except Stop (Expansion Cell)
  | _, none, expansion => .ok expansion
  | 0, some _, _ => .error .outOfFuel
  | fuel + 1, some thh, expansion => do
      let hhNxt := expansion.chain.next thh
      let expansion ← expandMove hashv numBuckets idealChainMaxlen thh expansion
      expandChain hashv numBuckets idealChainMaxlen fuel hhNxt expansion

/-- The outer loop, over the old buckets. -/
def expandLoop (hashv : Cell → Nat) (tbl : Table Cell) (idealChainMaxlen fuel : Nat) :
    List Nat → Expansion Cell → Except Stop (Expansion Cell)
  | [], expansion => .ok expansion
  | index :: indices, expansion => do
      let bucket ← bucketAt tbl.buckets tbl.allocated index
      let expansion ← expandChain hashv tbl.numBuckets idealChainMaxlen fuel bucket.hhHead
        expansion
      expandLoop hashv tbl idealChainMaxlen fuel indices expansion

/-- The items over the doubled number of buckets, rounded up. -/
def Table.doubledIdeal (tbl : Table Cell) : Nat :=
  (tbl.numItems >>> (tbl.log2NumBuckets + 1)) +
    if hashToBkt tbl.numItems (toUnsigned (tbl.numBuckets * 2)) ≠ 0 then 1 else 0

/-- `HASH_EXPAND_BUCKETS` -/
def hashExpandBuckets (fuel : Nat) (hashv : Cell → Nat) (chain : Links Cell) (tbl : Table Cell) :
    Except Stop (Links Cell × Table Cell) :=
  if malloc (2 * tbl.numBuckets * sizeofUtHashBucket) then do
    let expansion ← expandLoop hashv tbl tbl.doubledIdeal fuel (List.range tbl.numBuckets)
      ⟨chain, fun _ => {}, 0⟩
    let ineffExpands :=
      if expansion.nonidealItems > tbl.numItems >>> 1 then toUnsigned (tbl.ineffExpands + 1)
      else 0
    .ok (expansion.chain,
      { tbl with
        buckets := expansion.newBuckets
        allocated := 2 * tbl.numBuckets
        numBuckets := toUnsigned (tbl.numBuckets * 2)
        log2NumBuckets := tbl.log2NumBuckets + 1
        idealChainMaxlen := tbl.doubledIdeal
        nonidealItems := expansion.nonidealItems
        ineffExpands := ineffExpands
        noexpand := tbl.noexpand || decide (ineffExpands > 1) })
  else .error .outOfMemory

/-- `HASH_ADD_TO_BKT` -/
def hashAddToBkt (fuel : Nat) (hashv : Cell → Nat) (bkt : Nat) (add : Cell) (chain : Links Cell)
    (tbl : Table Cell) : Except Stop (Links Cell × Table Cell) := do
  let head ← bucketAt tbl.buckets tbl.allocated bkt
  let count := toUnsigned (head.count + 1)
  let chain := chain.pushFront head.hhHead add
  let tbl := { tbl with
    buckets := Function.update tbl.buckets bkt { head with hhHead := some add, count := count } }
  if count ≥ toUnsigned (toUnsigned (head.expandMult + 1) * hashBktCapacityThresh) ∧
      tbl.noexpand = false then
    hashExpandBuckets malloc fuel hashv chain tbl
  else .ok (chain, tbl)

/-- `HASH_MAKE_TABLE` -/
def hashMakeTable (head : Cell) : Except Stop (Table Cell) :=
  if malloc sizeofUtHashTable && malloc (hashInitialNumBuckets * sizeofUtHashBucket) then
    .ok
      { buckets := fun _ => {}
        allocated := hashInitialNumBuckets
        numBuckets := hashInitialNumBuckets
        log2NumBuckets := hashInitialNumBucketsLog2
        numItems := 0
        tail := some head
        idealChainMaxlen := 0
        nonidealItems := 0
        ineffExpands := 0
        noexpand := false }
  else .error .outOfMemory

/-- The list in application order with a new last cell: `HASH_MAKE_TABLE` where
it is the first one, else `HASH_APPEND_LIST`. -/
def hashAppendList (add : Cell) (hash : Hash Cell) : Except Stop (Links Cell × Root Cell) :=
  match hash.root with
  | none => do
      let tbl ← hashMakeTable malloc add
      .ok ((hash.app.setNext add none).setPrev add none, ⟨add, tbl⟩)
  | some root =>
      match root.tbl.tail with
      | none => .error .badAddress
      | some tail =>
          .ok (hash.app.pushBack (some tail) add,
            { root with tbl := { root.tbl with tail := some add } })

/-- `HASH_ADD_KEYPTR` -/
def hashAdd (fuel : Nat) (add : Cell) (key : Bytes) (hash : Hash Cell) :
    Except Stop (Hash Cell) := do
  let hashval := hashFcn key
  let hashv := Function.update hash.hashv add hashval
  let (app, root) ← hashAppendList malloc add hash
  let tbl := { root.tbl with numItems := toUnsigned (root.tbl.numItems + 1) }
  let (chain, tbl) ← hashAddToBkt malloc fuel hashv (hashToBkt hashval tbl.numBuckets) add
    hash.chain tbl
  .ok
    { app := app
      chain := chain
      key := Function.update hash.key add key
      hashv := hashv
      root := some { root with tbl := tbl } }

/-- `HASH_DEL_IN_BKT`, but for the links -/
def Bucket.delIn (bucket : Bucket Cell) (chain : Links Cell) (del : Cell) : Bucket Cell :=
  { bucket with
    count := toUnsigned (bucket.count + 4294967295)
    hhHead := if bucket.hhHead = some del then chain.next del else bucket.hhHead }

/-- `HASH_DELETE` -/
def hashDelete (del : Cell) (hash : Hash Cell) : Except Stop (Hash Cell) :=
  match hash.root with
  | none => .error .badAddress
  | some root =>
      match hash.app.prev del, hash.app.next del with
      | none, none => .ok { hash with root := none }
      | prev, next => do
          let tail := if root.tbl.tail = some del then prev else root.tbl.tail
          let head := if prev = none then next.getD root.head else root.head
          let bkt := hashToBkt (hash.hashv del) root.tbl.numBuckets
          let bucket ← bucketAt root.tbl.buckets root.tbl.allocated bkt
          .ok { hash with
            app := hash.app.unlink del
            chain := hash.chain.unlink del
            root := some
              { head := head
                tbl :=
                  { root.tbl with
                    tail := tail
                    numItems := toUnsigned (root.tbl.numItems + 4294967295)
                    buckets := Function.update root.tbl.buckets bkt
                      (bucket.delIn hash.chain del) } } }

/-- The walk of `HASH_FIND_IN_BKT` -/
def hashFindInBkt (hash : Hash Cell) (hashval : Nat) (key : Bytes) :
    Nat → Option Cell → Except Stop (Option Cell)
  | _, none => .ok none
  | 0, some _ => .error .outOfFuel
  | fuel + 1, some out =>
      if hash.hashv out = hashval ∧ (hash.key out).length = key.length ∧ hash.key out = key then
        .ok (some out)
      else hashFindInBkt hash hashval key fuel (hash.chain.next out)

/-- `HASH_FIND` -/
def hashFind (fuel : Nat) (key : Bytes) (hash : Hash Cell) : Except Stop (Option Cell) :=
  match hash.root with
  | none => .ok none
  | some root => do
      let hashval := hashFcn key
      let bucket ← bucketAt root.tbl.buckets root.tbl.allocated
        (hashToBkt hashval root.tbl.numBuckets)
      hashFindInBkt hash hashval key fuel bucket.hhHead

/-- `HASH_COUNT` -/
def hashCount (hash : Hash Cell) : Nat :=
  match hash.root with
  | none => 0
  | some root => root.tbl.numItems

/-- The body of a loop that deletes some of the elements it is at. -/
def visit (deletes : Cell → Bool) (el : Cell) (state : List Cell × Hash Cell) :
    Except Stop (List Cell × Hash Cell) := do
  let hash ← if deletes el then hashDelete el state.2 else .ok state.2
  .ok (state.1 ++ [el], hash)

/-- `HASH_ITER` with a body that deletes the cells it is told to; the cells
visited. -/
def hashIter (deletes : Cell → Bool) (fuel : Nat) (hash : Hash Cell) :
    Except Stop (List Cell × Hash Cell) :=
  let head := hash.root.map Root.head
  iterate (fun state => state.2.app.next) (visit deletes) .outOfFuel fuel head
    (head.bind hash.app.next) ([], hash)

end Macros

end Uthash
