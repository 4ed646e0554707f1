import UhdHost.Library.ByteMemory

/-!
# Byte order

`endianness_t` and the conversions of `uhd/utils/byteswap.hpp` between the byte order of the host
and that of a link.  The order of the host is what the library is built for
(`UHD_BIG_ENDIAN`), and a parameter here.
-/

namespace UhdHost

open WordBytes

/-- `endianness_t` -/
inductive Endianness where
  | big
  | little
  deriving DecidableEq, Repr

namespace Endianness

variable {n : ℕ}

/-- Where the bytes of a word lie in the memory of such a host. -/
def byteOrder : Endianness → ByteOrder
  | big => .highestFirst
  | little => .lowestFirst

/-- `htonx`, and `ntohx` -/
def htonx (host : Endianness) (x : BitVec n) : BitVec n :=
  if host = .big then x else byteswap x

/-- `htowx`, and `wtohx` -/
def htowx (host : Endianness) (x : BitVec n) : BitVec n :=
  if host = .big then byteswap x else x

/-- From the order of the host to the order of a link, and back: the conversion that packets
are written and read with. -/
def conv (host link : Endianness) (x : BitVec n) : BitVec n :=
  if link = .big then htonx host x else htowx host x

theorem conv_conv (host link : Endianness) (hn : n % 8 = 0) (x : BitVec n) :
    conv host link (conv host link x) = x := by
  have hswap : byteswap (byteswap x) = x := byteswap_byteswap x hn
  cases host with
  | big =>
    cases link with
    | big => rfl
    | little => exact hswap
  | little =>
    cases link with
    | big => exact hswap
    | little => rfl

end Endianness
end UhdHost
