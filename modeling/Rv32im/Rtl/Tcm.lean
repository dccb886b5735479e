import Mathlib.Data.Nat.Log
import Rv32im.Rtl.Slave

/-!
# `rv32_tcm`

The tightly coupled memory: a read-only instruction port and a data port with byte strobes, both
always ready, over one array that is never reset. The range tests subtract in 33 bits, so an
address below the base is out of range as well.
-/

namespace Rv32im

/-- The parameters of `rv32_tcm`; the array holds whole words. -/
structure TcmParams where
  /-- `BYTES / 4`, so that `BYTES` is a multiple of four. -/
  wordCount : ℕ
  baseAddr : Word
  wordCount_pos : 0 < wordCount
  wordCount_lt : wordCount < 2 ^ 30

namespace TcmParams

variable (p : TcmParams)

/-- `BYTES`. -/
def bytes : ℕ := 4 * p.wordCount

/-- `INDEX_WIDTH`. -/
def indexWidth : ℕ := if p.wordCount > 1 then Nat.clog 2 p.wordCount else 1

/-- `imem_byte_offset` and `dmem_byte_offset`. -/
def byteOffset (addr : Word) : BitVec 33 := addr.setWidth 33 - p.baseAddr.setWidth 33

/-- `imem_word_index` and `dmem_word_index`. -/
def wordIndex (addr : Word) : BitVec p.indexWidth := (p.byteOffset addr).extractLsb' 2 p.indexWidth

/-- `imem_in_range` and `dmem_in_range`. -/
def inRange (addr : Word) : Bool :=
  decide (p.byteOffset addr < BitVec.ofNat 33 p.bytes) && addr.extractLsb 1 0 == 0#2

end TcmParams

/-- The array and the response registers of the two ports. -/
structure Tcm (p : TcmParams) where
  mem : Vector Word p.wordCount
  imemRsp : MemRspQ := {}
  dmemRsp : MemRspQ := {}
deriving DecidableEq

/-- What the masters drive on the two ports. -/
structure Tcm.In where
  imem : MemOut := {}
  dmem : MemOut := {}
deriving DecidableEq, Repr

namespace Tcm

variable {p : TcmParams} (s : Tcm p) (i : In)

/-- `mem[word_index]`. -/
def read (addr : Word) : Word := s.mem[(p.wordIndex addr).toNat]?.getD 0#32

/-- `imem_read_ok`. -/
def imemReadOk (p : TcmParams) (r : MemReq) : Bool :=
  p.inRange r.addr && !r.write && r.wstrb == 0#4

/-- The array after a data request: the strobed bytes of a write in range. -/
def write (mem : Vector Word p.wordCount) (r : MemReq) : Vector Word p.wordCount :=
  if p.inRange r.addr && r.write then
    let k := (p.wordIndex r.addr).toNat
    mem.setIfInBounds k (mergeBytes r.wstrb (mem[k]?.getD 0#32) r.wdata)
  else mem

/-- The clock edge of `rv32_tcm`. The data port reads the array before it writes it. -/
def next : Tcm p where
  mem := if i.dmem.reqValid then write s.mem i.dmem.req else s.mem
  imemRsp :=
    -- both ports read the array of before the edge
    .next i.imem.reqValid (imemReadOk p i.imem.req) (s.read i.imem.req.addr)
  dmemRsp :=
    .next i.dmem.reqValid (p.inRange i.dmem.req.addr) (s.read i.dmem.req.addr)

end Tcm

end Rv32im
