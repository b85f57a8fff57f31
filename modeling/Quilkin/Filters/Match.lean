import Quilkin.Net.MetadataValue
import Quilkin.Filters.Error

/-!
# The match filter

Model of `src/filters/match.rs`: for each direction the filter is configured for, it reads one key
of the packet's dynamic metadata and runs the filter of the first branch whose value equals the
value found there, or the fallthrough's filter when none does. The branch's value is the left
operand of the comparison, `key == value`.

The filters of the branches are a type of instances and what running one does to the context is a
parameter, as the context and how its metadata is read are.
-/

namespace Quilkin.Filters

open Net

/-- `ConfigInstance`: the key of the metadata to match, the branches with the value each matches
and its filter's instance, and the fallthrough's instance. -/
structure ConfigInstance (K F : Type) where
  metadataKey : K
  branches : List (Value × F)
  fallthrough : F

variable {K F Ctx : Type}

/-- `match_filter`. With no configuration for the direction nothing runs. Otherwise the value under
the key must be there, and the instance of the first branch whose value equals it runs, or the
fallthrough's. -/
def matchFilter (config : Option (ConfigInstance K F)) (ctx : Ctx)
    (getMetadata : Ctx → K → Option Value) (andThen : Ctx → F → Except FilterError Ctx) :
    Except FilterError Ctx :=
  match config with
  | some config => do
    let value ← (getMetadata ctx config.metadataKey).elim (.error .matchNoMetadata) .ok
    match config.branches.find? fun branch => branch.1.eq value with
    | some (_, inst) => andThen ctx inst
    | none => andThen ctx config.fallthrough
  | none => .ok ctx

/-- `Match`, by the configurations of its two directions. -/
structure Match (K F : Type) where
  onReadFilters : Option (ConfigInstance K F)
  onWriteFilters : Option (ConfigInstance K F)

namespace Match

variable (m : Match K F) (metadata : Ctx → K → Option Value)

/-- `Filter::read`, which runs the instance's `read`. -/
def read (readInstance : Ctx → F → Except FilterError Ctx) (ctx : Ctx) : Except FilterError Ctx :=
  matchFilter m.onReadFilters ctx metadata readInstance

/-- `Filter::write`, which runs the instance's `write`. -/
def write (writeInstance : Ctx → F → Except FilterError Ctx) (ctx : Ctx) :
    Except FilterError Ctx :=
  matchFilter m.onWriteFilters ctx metadata writeInstance

end Match

end Quilkin.Filters
