import Quilkin.Net.Cluster
import Quilkin.Net.MetadataValue
import Quilkin.Net.Packet
import Quilkin.Filters.Error

/-!
# What a filter reads and writes

The contexts a filter's `read` and `write` are given (`src/filters/read.rs`,
`src/filters/write.rs`), and the dynamic metadata in them (`src/net/endpoint/metadata.rs`). On the
read side: the cluster map the packet is routed through, the destinations pushed so far, the
source, the contents and the metadata; on the write side: the source, the destination, the
contents and the metadata.

The contents are the socket backend's `BytesMut`, edited through `Net.BytesMut`, which the io-uring
and XDP backends simulate (`RingBuffer.run_simulates`, `PacketWrapper.run_agrees_bytesMut`). A
metadata key is interned text, so two keys are equal when their texts are; the metadata is a
function from keys, `none` at a key the map does not hold.

The `Display` of `FilterError` is here too: it is the text the pipelines report a filter's error
with.
-/

namespace Quilkin.Filters

open Net

/-- `metadata::Key`, an interned string. -/
abbrev Key := String

/-- `DynamicMetadata`, the values filters leave for each other, by key. -/
abbrev DynamicMetadata := Key → Option Value

namespace DynamicMetadata

/-- `HashMap::insert`. -/
def insert (m : DynamicMetadata) (key : Key) (value : Value) : DynamicMetadata :=
  Function.update m key (some value)

variable {m : DynamicMetadata} {key key' : Key} {value : Value}

@[simp] theorem insert_self : m.insert key value key = some value := Function.update_self ..

@[simp] theorem insert_of_ne (h : key' ≠ key) : m.insert key value key' = m key' :=
  Function.update_of_ne h ..

end DynamicMetadata

/-- `ReadContext`, for a packet a client sent. -/
structure ReadContext where
  endpoints : ClusterMap
  destinations : List EndpointAddress
  source : EndpointAddress
  contents : List UInt8
  metadata : DynamicMetadata

/-- `ReadContext::new`: no metadata yet. -/
def ReadContext.new (endpoints : ClusterMap) (source : EndpointAddress) (contents : List UInt8)
    (destinations : List EndpointAddress) : ReadContext :=
  ⟨endpoints, destinations, source, contents, fun _ => none⟩

/-- `WriteContext`, for a packet an endpoint sent back. -/
structure WriteContext where
  source : EndpointAddress
  dest : EndpointAddress
  contents : List UInt8
  metadata : DynamicMetadata

/-- `WriteContext::new`: no metadata yet. -/
def WriteContext.new (source dest : EndpointAddress) (contents : List UInt8) : WriteContext :=
  ⟨source, dest, contents, fun _ => none⟩

/-- `Display` of `FilterError`. -/
def FilterError.toString : FilterError → String
  | .noValueCaptured => "no value captured"
  | .tokenRouter error => error
  | .io error => error
  | .firewallDenied => "packet denied by firewall"
  | .matchNoMetadata => "expected metadata key for match not present"
  | .dropped => "dropped"
  | .rateLimitExceeded => "rate limit exceeded"
  | .custom error => error

end Quilkin.Filters
