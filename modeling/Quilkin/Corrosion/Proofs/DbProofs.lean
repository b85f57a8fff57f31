import Quilkin.Corrosion.Db
import Quilkin.Data.IpTextRoundTrip

/-!
# Proofs: endpoints read back from the database

The port's digits hold no `:`, so `parse_endpoint` splits the text of `to_compact_str` before the
port, whatever `:` the address holds: those of an ipv6 address, or of a name. A name that does not
begin with `|` is read back as the name, and an ip address as the address, since `FromStr` reads
what `Display` writes.
-/

namespace Quilkin.Corrosion

theorem colon_not_mem_toDigits (n : Nat) : ':' ∉ Nat.toDigits 10 n :=
  Text.not_mem_toDigits (by decide) (by decide) (Parser.toDigit_colon 16)

/-- The text of an endpoint is split before its port. -/
theorem rsplitOnce_toCompactStr (address : List Char) (port : UInt16) :
    Text.rsplitOnce ':' (address ++ ':' :: Nat.toDigits 10 port.toNat) =
      some (address, Nat.toDigits 10 port.toNat) :=
  Text.rsplitOnce_append (colon_not_mem_toDigits _)

theorem parseEndpoint_toCompactStr :
    ∀ ep : Endpoint, (∀ name, ep.address = .name name → name.toList.head? ≠ some '|') →
      parseEndpoint (toCompactStr ep) = .ok ep := by
  rintro ⟨address, port⟩ hname
  have hport := Text.parseU16_toDigits port
  cases address with
  | ip ip =>
    have hsplit := rsplitOnce_toCompactStr ('|' :: ip.display) port
    rw [List.cons_append] at hsplit
    simp [parseEndpoint, toCompactStr, hsplit, hport, Text.stripPrefix_cons,
      IpAddr.fromStr_display, Except.mapError, Endpoint.new, bind, Except.bind, pure, Except.pure]
  | name name =>
    -- a name that does not begin with `|` is not taken for an address
    have hstrip : Text.stripPrefix '|' name.toList = none := by
      have hhead := hname name rfl
      cases hn : name.toList with
      | nil => rfl
      | cons c cs =>
        rw [hn] at hhead
        exact Text.stripPrefix_eq_none (fun hc => hhead (by rw [hc]; rfl)) cs
    simp [parseEndpoint, toCompactStr, rsplitOnce_toCompactStr, hport, hstrip, Except.mapError,
      Endpoint.new, bind, Except.bind, pure, Except.pure]

theorem parseEndpoint_toCompactStr_name :
    parseEndpoint (toCompactStr ⟨.name "a:b", 7777⟩) = .ok ⟨.name "a:b", 7777⟩ :=
  parseEndpoint_toCompactStr _ fun name h => by
    cases h
    decide

end Quilkin.Corrosion
