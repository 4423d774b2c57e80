namespace Iec61850

structure Ipv6Addr where
  octets : List UInt8
  length_eq : octets.length = 16
deriving DecidableEq

inductive IpAddr where
  | v4 (a b c d : UInt8)
  | v6 (addr : Ipv6Addr)
deriving DecidableEq

/-- An address and a port, with the scope that tells equal IPv6 addresses apart. -/
structure SocketAddr where
  ip : IpAddr
  port : UInt16
  flowinfo : UInt32 := 0
  scopeId : UInt32 := 0
deriving DecidableEq

end Iec61850
