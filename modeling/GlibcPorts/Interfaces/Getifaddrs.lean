import GlibcPorts.Errno
import GlibcPorts.Interfaces.RouteMessages
import GlibcPorts.Lib.CString

/-!
# `GlibcPorts.Interfaces.Getifaddrs`: `getifaddrs`

`getifaddrs` of `kfreebsd/ifaddrs.c`. It reads the routing messages twice. The first pass counts:
`icnt` entries of the list, `ncnt` bytes for names, `dcnt` bytes for addresses and data. One
block is allocated for the three, and the second pass fills it.

Both passes are the same loop and the same `switch` (`routeTurn`) with other actions for a
message that becomes an entry. The filling pass has a region of the block for each of the three
counters, and an action is `none` when it would write outside its region. A pointer into a region
is an offset or, for an entry, an index. What `malloc` left in the block is any bytes.
-/

set_option autoImplicit false

namespace GlibcPorts.Interfaces

open Lib

/-! ### The loop over the messages -/

section Loop

variable {σ : Type} (buf : RouteBuf)

/-- The body of both loops. The state has `idx` in front. `link` is the action at an interface,
and `addr` the one at an address. -/
def routeTurn (link addr : σ → Nat → Option σ) (s : Nat × σ) (p : Nat) :
    Option (Errno ⊕ (Nat × σ)) :=
  if buf.rtmVersion p ≠ RTM_VERSION then some (.inr s)
  else if buf.rtmType p = RTM_IFINFO then
    if buf.ifmAddrs p &&& RTA_IFP ≠ 0 then
      (link s.2 p).map fun s' => .inr (buf.ifmIndex p, s')
    else some (.inr (0, s.2))
  else if buf.rtmType p = RTM_NEWADDR then
    if s.1 ≠ 0 ∧ buf.ifamIndex p ≠ s.1 then some (.inl EINVAL)
    else if s.1 = 0 ∨ buf.ifamAddrs p &&& RTA_MASKS = 0 then some (.inr s)
    else (addr s.2 p).map fun s' => .inr (s.1, s')
  else some (.inr s)

/-- A loop over the messages, from `idx = 0` on. -/
def routeLoop (link addr : σ → Nat → Option σ) (s : σ) : Exit (Nat × σ) Errno :=
  walk (fun p => some (buf.rtmMsglen p)) (routeTurn buf link addr) buf.needed (buf.needed + 1)
    (0, s) 0

end Loop

/-! ### The first pass -/

section Sizing

variable (abi : Abi) (buf : RouteBuf)

/-- The counters. -/
structure Sizes where
  icnt : Int32
  dcnt : Int32
  ncnt : Int32
deriving DecidableEq, Repr

/-- `dcnt` behind the loop over the addresses. -/
def sizeAddrs (alen : Nat) : List Nat → Nat → Int32 → Int32
  | [], _, dcnt => dcnt
  | i :: is, p, dcnt =>
      let len := buf.saRlen abi p
      let dcnt :=
        if i = RTAX_NETMASK ∧ buf.saLen p = 0 then dcnt + Int32.ofNat alen
        else dcnt + Int32.ofNat len
      sizeAddrs alen is (p + len) dcnt

/-- An interface. -/
def sizeLink (s : Sizes) (p : Nat) : Option Sizes :=
  let dl := p + sizeofIfMsghdr abi
  some {
    icnt := s.icnt + 1
    dcnt := s.dcnt + Int32.ofNat (buf.saRlen abi dl + ALIGNBYTES abi)
      + Int32.ofNat (sizeofIfData abi)
    ncnt := s.ncnt + Int32.ofNat (buf.sdlNlen dl + 1) }

/-- An address of an interface. -/
def sizeAddr (s : Sizes) (p : Nat) : Option Sizes :=
  let bits := addrBits (buf.ifamAddrs p)
  let q := p + sizeofIfaMsghdr
  some { s with
    icnt := s.icnt + 1
    dcnt := sizeAddrs abi buf (alenOf abi buf bits q) bits q s.dcnt }

end Sizing

/-! ### The second pass -/

/-- `struct ifaddrs`. -/
structure Ifaddrs where
  ifaNext : Option Nat
  ifaName : Option Nat
  ifaFlags : BitVec 32
  ifaAddr : Option Nat
  ifaNetmask : Option Nat
  ifaBroadaddr : Option Nat
  ifaData : Option Nat
deriving DecidableEq, Repr

/-- `memset (ifa, 0, ...)`. -/
def Ifaddrs.zero : Ifaddrs := ⟨none, none, 0, none, none, none, none⟩

/-- The block, with the pointers `ift`, `names` and `data` into its regions. `base` is the
address of the data region. -/
structure Filling where
  entries : List Ifaddrs
  names : List UInt8
  data : List UInt8
  base : Nat
  ift : Nat
  namesPos : Nat
  dataPos : Nat
  cif : Option Nat
deriving DecidableEq, Repr

namespace Filling

/-- Stores to members of `*ift`. -/
def setEntry (s : Filling) (f : Ifaddrs → Ifaddrs) : Option Filling :=
  if s.ift < s.entries.length then some { s with entries := s.entries.modify s.ift f } else none

/-- Copies bytes to `names` and moves the pointer behind them. -/
def putName (s : Filling) (bs : List UInt8) : Option Filling :=
  (CString.writeAt s.names s.namesPos bs).map fun names =>
    { s with names := names, namesPos := s.namesPos + bs.length }

/-- Copies bytes to `data`. -/
def putData (s : Filling) (bs : List UInt8) : Option Filling :=
  (CString.writeAt s.data s.dataPos bs).map fun data => { s with data := data }

/-- `data += n`. -/
def advance (s : Filling) (n : Nat) : Filling := { s with dataPos := s.dataPos + n }

/-- `data = ALIGN (data)`, for the address that `data` has. -/
def align (abi : Abi) (s : Filling) : Filling :=
  { s with dataPos := alignUp (s.base + s.dataPos) (ALIGNBYTES abi) - s.base }

/-- `ift = (ift->ifa_next = ift + 1)`. -/
def next (s : Filling) : Option Filling :=
  (s.setEntry fun e => { e with ifaNext := some (s.ift + 1) }).map fun s' =>
    { s' with ift := s.ift + 1 }

end Filling

section Fill

variable (abi : Abi) (buf : RouteBuf)

/-- An interface. -/
def fillLink (s : Filling) (p : Nat) : Option Filling := do
  let dl := p + sizeofIfMsghdr abi
  let s := { s with cif := some s.ift }
  let s ← s.setEntry fun e => { e with ifaName := some s.namesPos, ifaFlags := buf.ifmFlags p }
  let s ← s.putName (buf.sdlName dl ++ [0])
  let s ← s.setEntry fun e => { e with ifaAddr := some s.dataPos }
  let s ← s.putData (buf.bytes dl (buf.saLen dl))
  let s := (s.advance (buf.saRlen abi dl)).align abi
  let s ← s.setEntry fun e => { e with ifaData := some s.dataPos }
  let s ← s.putData (buf.ifmData abi p)
  (s.advance (sizeofIfData abi)).next

/-- One socket address: a store of the pointer `data`, and a copy to where it points. -/
def fillSockaddr (s : Filling) (member : Nat → Ifaddrs → Ifaddrs) (bs : List UInt8) :
    Option Filling := do
  let s ← s.setEntry (member s.dataPos)
  let s ← s.putData bs
  return s.advance bs.length

/-- The `switch` over the bits. -/
def fillBit (alen i p : Nat) (s : Filling) : Option Filling :=
  let len := buf.saRlen abi p
  if i = RTAX_IFA then
    fillSockaddr s (fun d e => { e with ifaAddr := some d }) (buf.bytes p len)
  else if i = RTAX_NETMASK then
    fillSockaddr s (fun d e => { e with ifaNetmask := some d })
      (if buf.saLen p = 0 then List.replicate alen 0 else buf.bytes p len)
  else if i = RTAX_BRD then
    fillSockaddr s (fun d e => { e with ifaBroadaddr := some d }) (buf.bytes p len)
  else some s

/-- The loop over the addresses. -/
def fillAddrs (alen : Nat) : List Nat → Nat → Filling → Option Filling
  | [], _, s => some s
  | i :: is, p, s => do
      let s ← fillBit abi buf alen i p s
      fillAddrs alen is (p + buf.saRlen abi p) s

/-- An address of an interface. -/
def fillAddr (s : Filling) (p : Nat) : Option Filling := do
  -- `cif->ifa_name` and `cif->ifa_flags`
  let c ← s.cif
  let link ← s.entries[c]?
  let s ← s.setEntry fun e =>
    { e with ifaName := link.ifaName, ifaFlags := link.ifaFlags, ifaData := none }
  let bits := addrBits (buf.ifamAddrs p)
  let q := p + sizeofIfaMsghdr
  let s ← fillAddrs abi buf (alenOf abi buf bits q) bits q s
  s.next

end Fill

/-! ### The function -/

/-- What `getifaddrs` returns. -/
inductive GetifaddrsResult where
  /-- 0, with the list at `*pif` and the memory it is in. -/
  | list (pif : Option Nat) (entries : List Ifaddrs) (names data : List UInt8)
  /-- -1, with this `errno`. -/
  | error (errno : Errno)
  | fault
  | running
deriving DecidableEq, Repr

/-- One attempt to read the messages: the size that the first `sysctl` reports, whether `malloc`
returns a buffer for so many bytes, and what the second `sysctl` says. -/
structure Attempt where
  size : Except Errno Nat
  malloc : Nat → Bool
  read : Nat → Except Errno RouteBuf

/-- What `getifaddrs` meets: its attempts to read the messages, and the address and the contents
of the block that `malloc` returns. -/
structure IfEnv where
  attempt : Nat → Attempt
  malloc : Nat → Option Nat
  junk : Nat → UInt8

def MAX_SYSCTL_TRY : Nat := 5

/-- The loop that reads the messages, with the attempts that are left and `ntry`. -/
def readMessages (env : IfEnv) : Nat → Nat → Except Errno RouteBuf
  | 0, _ => .error ENOMEM
  | left + 1, ntry => do
      let needed ← (env.attempt ntry).size
      if (env.attempt ntry).malloc needed then
        match (env.attempt ntry).read needed with
        | .ok buf => .ok buf
        | .error errno =>
            if errno ≠ ENOMEM ∨ MAX_SYSCTL_TRY ≤ ntry + 1 then .error errno
            else readMessages env left (ntry + 1)
      else .error ENOMEM

section Getifaddrs

variable (abi : Abi) (env : IfEnv) (buf : RouteBuf)

/-- The size of the block, as a `size_t`. -/
def blockSize (s : Sizes) : Nat :=
  ((sizeofIfaddrs abi * s.icnt.toInt + s.dcnt.toInt + s.ncnt.toInt) % 2 ^ abi.longBits).toNat

/-- The block, at the address `p`, in front of the second pass. A region has what its counter says
and the block has room for, and nothing when the counter is negative. -/
def startFilling (p : Nat) (s : Sizes) : Filling :=
  let icnt := s.icnt.toInt.toNat
  let dcnt := s.dcnt.toInt.toNat
  let ncnt := s.ncnt.toInt.toNat
  let size := blockSize abi s
  let dataOff := sizeofIfaddrs abi * icnt
  let namesOff := dataOff + dcnt
  { entries := List.replicate (min icnt (size / sizeofIfaddrs abi)) .zero
    names := (List.range (min ncnt (size - namesOff))).map fun i => env.junk (namesOff + i)
    data := (List.range (min dcnt (size - dataOff))).map fun i => env.junk (dataOff + i)
    base := p + dataOff
    ift := 0
    namesPos := 0
    dataPos := 0
    cif := none }

/-- The end of the function, behind the second pass. -/
def finishList (s : Filling) : GetifaddrsResult :=
  if s.ift = 0 then .list none [] [] []
  else
    let last := s.ift - 1
    .list (some 0) (s.entries.modify last fun e => { e with ifaNext := none }) s.names s.data

/-- `getifaddrs`, behind the loop that reads the messages. -/
def listInterfaces : GetifaddrsResult :=
  match routeLoop buf (sizeLink abi buf) (sizeAddr abi buf) ⟨1, 0, 0⟩ with
  | .stopped _ errno => .error errno
  | .fault => .fault
  | .running => .running
  | .ended _ (_, s) =>
      if s.icnt + s.dcnt + s.ncnt = 1 then .list none [] [] []
      else
        match env.malloc (blockSize abi s) with
        | none => .error ENOMEM
        | some p =>
            match routeLoop buf (fillLink abi buf) (fillAddr abi buf)
              (startFilling abi env p s) with
            | .stopped _ errno => .error errno
            | .fault => .fault
            | .running => .running
            | .ended _ (_, s) => finishList s

/-- `getifaddrs`. -/
def getifaddrs : GetifaddrsResult :=
  match readMessages env MAX_SYSCTL_TRY 0 with
  | .error errno => .error errno
  | .ok buf => listInterfaces abi env buf

end Getifaddrs

end GlibcPorts.Interfaces
