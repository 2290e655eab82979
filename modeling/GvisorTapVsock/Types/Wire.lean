/-
GvisorTapVsock.Types.Wire — the JSON of `types.ExposeRequest`,
`types.UnexposeRequest` and `types.Zone`, by the tags and the types of their
fields (`pkg/types/handshake.go`, `pkg/types/configuration.go`).

`json.Marshal` and a `json.Decoder` of Go 1.20 are in `Go.Json`. A request
comes through them as it was (`unmarshal_exposeRequest`,
`unmarshal_unexposeRequest`). A zone does not: its addresses get sixteen bytes,
and `regexp.Regexp`, a struct without exported fields, is written as an empty
object, from which the other side makes a zero `Regexp` (`wireZone`,
`unmarshal_zone`).
-/
import GvisorTapVsock.Go.Json
import GvisorTapVsock.Services.Dns
import GvisorTapVsock.Services.Forwarder.Ports

namespace GvisorTapVsock.Types

open GvisorTapVsock.Go GvisorTapVsock.Go.Json
open GvisorTapVsock.Services.Dns GvisorTapVsock.Services.Forwarder

/-- The field of a struct, in the text of an error. -/
def structField (struct field type : String) : String :=
  "Go struct field " ++ struct ++ "." ++ field ++ " of type " ++ type

def valueOf (type : String) : String := "Go value of type " ++ type

/-! ## Requests -/

/-- `json.Marshal` of a `types.ExposeRequest`. -/
def marshalExposeRequest (req : ExposeRequest) : Json :=
  .obj [("local", .str req.localAddr), ("remote", .str req.remote),
    ("protocol", .str req.protocol)]

def exposeRequestFields : Fields ExposeRequest :=
  [("local", (string (structField "ExposeRequest" "local" "string")).at
      ExposeRequest.localAddr fun v req => { req with localAddr := v }),
    ("remote", (string (structField "ExposeRequest" "remote" "string")).at
      ExposeRequest.remote fun v req => { req with remote := v }),
    ("protocol", (string (structField "ExposeRequest" "protocol" "types.TransportProtocol")).at
      ExposeRequest.protocol fun v req => { req with protocol := v })]

def exposeRequest : Decoder ExposeRequest :=
  struct exposeRequestFields (valueOf "types.ExposeRequest")

/-- Decoding a `types.ExposeRequest`. -/
def unmarshalExposeRequest : Json → Except String ExposeRequest :=
  decode exposeRequest ⟨"", "", ""⟩

/-- Decoding a `[]types.ExposeRequest`. -/
def unmarshalExposeRequests : Json → Except String (List ExposeRequest) :=
  decode (slice exposeRequest ⟨"", "", ""⟩ (valueOf "[]types.ExposeRequest")) []

/-- `json.Marshal` of a `types.UnexposeRequest`. -/
def marshalUnexposeRequest (req : UnexposeRequest) : Json :=
  .obj [("local", .str req.localAddr), ("protocol", .str req.protocol)]

def unexposeRequestFields : Fields UnexposeRequest :=
  [("local", (string (structField "UnexposeRequest" "local" "string")).at
      UnexposeRequest.localAddr fun v req => { req with localAddr := v }),
    ("protocol", (string (structField "UnexposeRequest" "protocol" "types.TransportProtocol")).at
      UnexposeRequest.protocol fun v req => { req with protocol := v })]

/-- Decoding a `types.UnexposeRequest`. -/
def unmarshalUnexposeRequest : Json → Except String UnexposeRequest :=
  decode (struct unexposeRequestFields (valueOf "types.UnexposeRequest")) ⟨"", ""⟩

theorem exposeRequest_marshal (old req : ExposeRequest) :
    exposeRequest old (marshalExposeRequest req) = .ok (req, none) := rfl

theorem unmarshal_exposeRequest (req : ExposeRequest) :
    unmarshalExposeRequest (marshalExposeRequest req) = .ok req :=
  decode_eq_ok (exposeRequest_marshal _ req)

theorem unmarshal_exposeRequests (reqs : List ExposeRequest) :
    unmarshalExposeRequests (.arr (reqs.map marshalExposeRequest)) = .ok reqs := by
  have hforall : List.Forall₂ (fun req j => exposeRequest ⟨"", "", ""⟩ j = .ok (req, none))
      reqs (reqs.map marshalExposeRequest) :=
    List.forall₂_map_right_iff.mpr (List.forall₂_same.mpr fun req _ => exposeRequest_marshal _ req)
  have helems := elems_eq_ok (f := id) hforall
  rw [List.map_id] at helems
  exact decode_eq_ok helems

theorem unmarshal_unexposeRequest (req : UnexposeRequest) :
    unmarshalUnexposeRequest (marshalUnexposeRequest req) = .ok req := rfl

/-! ## Zones -/

/-- A pointer to a `regexp.Regexp`. -/
def marshalRegexp : Option (String → Bool) → Json
  | none => .null
  | some _ => .obj []

def marshalRecord (record : Record) : Except String Json := do
  let ip ← record.ip.marshalText
  return .obj [("Name", .str record.name), ("IP", .str ip), ("Regexp", marshalRegexp record.regexp)]

/-- `json.Marshal` of a `types.Zone`. A nil slice is written as `null`, and
decoded to the same list as an empty array. -/
def marshalZone (zone : Zone) : Except String Json := do
  let records ← zone.records.mapM marshalRecord
  let defaultIP ← zone.defaultIP.marshalText
  return .obj [("Name", .str zone.name), ("Records", .arr records), ("DefaultIP", .str defaultIP)]

/-- `json.Marshal` of a `[]types.Zone`. -/
def marshalZones (zones : List Zone) : Except String Json := do
  let zones ← zones.mapM marshalZone
  return .arr zones

section Decoding

-- what `MatchString` of a zero `Regexp` does is not modelled (it dereferences
-- a nil program); it is this function here
variable (zeroRegexp : String → Bool)

def recordName : Decoder Record :=
  (string (structField "Record" "Records.Name" "string")).at
    Record.name fun v record => { record with name := v }

def recordIP : Decoder Record :=
  (text IP.unmarshalText (structField "Record" "Records.IP" "net.IP")).at
    Record.ip fun v record => { record with ip := v }

def recordRegexp : Decoder Record :=
  (pointer (struct [] (structField "Record" "Records.Regexp" "regexp.Regexp")) zeroRegexp).at
    Record.regexp fun v record => { record with regexp := v }

def record : Decoder Record :=
  struct [("Name", recordName), ("IP", recordIP), ("Regexp", recordRegexp zeroRegexp)]
    (structField "Zone" "Records" "types.Record")

def zoneName : Decoder Zone :=
  (string (structField "Zone" "Name" "string")).at
    Zone.name fun v zone => { zone with name := v }

def zoneRecords : Decoder Zone :=
  (slice (record zeroRegexp) ⟨"", [], none⟩ (structField "Zone" "Records" "[]types.Record")).at
    Zone.records fun v zone => { zone with records := v }

def zoneDefaultIP : Decoder Zone :=
  (text IP.unmarshalText (structField "Zone" "DefaultIP" "net.IP")).at
    Zone.defaultIP fun v zone => { zone with defaultIP := v }

def zone : Decoder Zone :=
  struct [("Name", zoneName), ("Records", zoneRecords zeroRegexp), ("DefaultIP", zoneDefaultIP)]
    (valueOf "types.Zone")

/-- Decoding a `types.Zone`. -/
def unmarshalZone : Json → Except String Zone := decode (zone zeroRegexp) ⟨"", [], []⟩

/-- Decoding a `[]types.Zone`. -/
def unmarshalZones : Json → Except String (List Zone) :=
  decode (slice (zone zeroRegexp) ⟨"", [], []⟩ (valueOf "[]types.Zone")) []

/-! ### What is left of a zone -/

/-- A record on the other side. -/
def wireRecord (record : Record) : Record :=
  { record with ip := record.ip.canonical, regexp := record.regexp.map fun _ => zeroRegexp }

/-- A zone on the other side. -/
def wireZone (zone : Zone) : Zone :=
  { zone with
    records := zone.records.map (wireRecord zeroRegexp)
    defaultIP := zone.defaultIP.canonical }

theorem unmarshal_record {r : Record} (h : r.ip.Valid) :
    ∃ j, marshalRecord r = .ok j ∧
      record zeroRegexp ⟨"", [], none⟩ j = .ok (wireRecord zeroRegexp r, none) := by
  obtain ⟨text, hmarshal, hunmarshal⟩ := IP.unmarshalText_marshalText h
  refine ⟨_, by rw [marshalRecord, hmarshal]; rfl, ?_⟩
  rw [record, struct, members_cons recordName rfl rfl,
    members_cons recordIP rfl (at_eq_ok (text_eq_ok hunmarshal))]
  obtain ⟨name, ip, regexp⟩ := r
  cases regexp with
  | none => rfl
  | some matchString => rfl

/-- **A zone comes through JSON** with all its addresses in sixteen bytes, and
with zero values for its regexps. -/
theorem unmarshal_zone {z : Zone} (hrecords : ∀ record ∈ z.records, record.ip.Valid)
    (hdefault : z.defaultIP.Valid) :
    ∃ j, marshalZone z = .ok j ∧
      zone zeroRegexp ⟨"", [], []⟩ j = .ok (wireZone zeroRegexp z, none) := by
  obtain ⟨records, hmarshal, hforall⟩ := mapM_eq_ok fun record hmem =>
    unmarshal_record zeroRegexp (hrecords record hmem)
  obtain ⟨text, htext, hunmarshal⟩ := IP.unmarshalText_marshalText hdefault
  refine ⟨_, by rw [marshalZone, hmarshal, htext]; rfl, ?_⟩
  have hslice : slice (record zeroRegexp) ⟨"", [], none⟩
      (structField "Zone" "Records" "[]types.Record") [] (.arr records) =
        .ok (z.records.map (wireRecord zeroRegexp), none) := elems_eq_ok hforall
  rw [zone, struct, members_cons zoneName rfl rfl,
    members_cons (zoneRecords zeroRegexp) rfl (at_eq_ok hslice),
    members_cons zoneDefaultIP rfl (at_eq_ok (text_eq_ok hunmarshal))]
  rfl

/-- The first address of a zone that has no text. -/
def invalidIP? (z : Zone) : Option IP :=
  (z.records.map Record.ip ++ [z.defaultIP]).find? fun ip => ¬ ip.Valid

theorem valid_of_invalidIP?_eq_none {z : Zone} (h : invalidIP? z = none) :
    (∀ record ∈ z.records, record.ip.Valid) ∧ z.defaultIP.Valid := by
  simp only [invalidIP?, List.find?_eq_none, List.mem_append, List.mem_map, List.mem_singleton,
    decide_eq_true_eq, not_not] at h
  exact ⟨fun record hmem => h _ (Or.inl ⟨record, hmem, rfl⟩), h _ (Or.inr rfl)⟩

theorem marshalZone_eq_error {z : Zone} {ip : IP} (h : invalidIP? z = some ip) :
    marshalZone z = .error ip.marshalError := by
  rw [invalidIP?, List.find?_append] at h
  cases hfind : (z.records.map Record.ip).find? fun ip => ¬ ip.Valid with
  | some ip' =>
    rw [hfind] at h
    obtain rfl : ip' = ip := Option.some.inj h
    rw [List.find?_map] at hfind
    obtain ⟨record, hrecord, rfl⟩ := Option.map_eq_some_iff.mp hfind
    obtain ⟨hinvalid, before, after, hsplit, hbefore⟩ := List.find?_eq_some_iff_append.mp hrecord
    have hrecords : z.records.mapM marshalRecord = .error record.ip.marshalError := by
      rw [hsplit]
      refine mapM_eq_error (fun record hmem => ?_) ?_
      · have hvalid : record.ip.Valid := by simpa using hbefore record hmem
        obtain ⟨j, hj, -⟩ := unmarshal_record (fun _ => false) hvalid
        exact ⟨j, hj⟩
      · rw [marshalRecord, IP.marshalText_eq_error (by simpa using hinvalid)]
        rfl
    rw [marshalZone, hrecords]
    rfl
  | none =>
    rw [hfind] at h
    have hrecords : ∀ record ∈ z.records, record.ip.Valid := by
      simpa [List.find?_eq_none] using hfind
    obtain ⟨records, hmarshal, -⟩ := mapM_eq_ok fun record hmem =>
      unmarshal_record (fun _ => false) (hrecords record hmem)
    have hlast : [z.defaultIP].find? (fun ip => ¬ ip.Valid) = some ip := h
    obtain rfl : ip = z.defaultIP := List.mem_singleton.mp (List.mem_of_find?_eq_some hlast)
    have hinvalid : ¬ z.defaultIP.Valid := by simpa using List.find?_some hlast
    rw [marshalZone, hmarshal, IP.marshalText_eq_error hinvalid]
    rfl

/-- **A list of zones comes through JSON**, or is not sent at all. -/
theorem unmarshal_zones (zs : List Zone) :
    (∃ j, (∀ z ∈ zs, invalidIP? z = none) ∧ marshalZones zs = .ok j ∧
      unmarshalZones zeroRegexp j = .ok (zs.map (wireZone zeroRegexp))) ∨
    ∃ err, (∃ z ∈ zs, invalidIP? z ≠ none) ∧ marshalZones zs = .error err := by
  have hzone : ∀ z : Zone, invalidIP? z = none → ∃ j, marshalZone z = .ok j ∧
      zone zeroRegexp ⟨"", [], []⟩ j = .ok (wireZone zeroRegexp z, none) := by
    intro z hz
    obtain ⟨hrecords, hdefault⟩ := valid_of_invalidIP?_eq_none hz
    exact unmarshal_zone zeroRegexp hrecords hdefault
  cases hfind : zs.find? fun z => (invalidIP? z).isSome with
  | none =>
    have hvalid : ∀ z ∈ zs, invalidIP? z = none := by
      simpa [List.find?_eq_none] using hfind
    obtain ⟨js, hmarshal, hforall⟩ := mapM_eq_ok fun z hmem => hzone z (hvalid z hmem)
    refine Or.inl ⟨.arr js, hvalid, by rw [marshalZones, hmarshal]; rfl, ?_⟩
    exact decode_eq_ok (elems_eq_ok hforall)
  | some z =>
    obtain ⟨hinvalid, before, after, hsplit, hbefore⟩ := List.find?_eq_some_iff_append.mp hfind
    obtain ⟨ip, hip⟩ := Option.isSome_iff_exists.mp hinvalid
    refine Or.inr ⟨ip.marshalError, ⟨z, by simp [hsplit], by simp [hip]⟩, ?_⟩
    have hzones : zs.mapM marshalZone = .error ip.marshalError := by
      rw [hsplit]
      refine mapM_eq_error (fun z hmem => ?_) (marshalZone_eq_error hip)
      obtain ⟨j, hj, -⟩ := hzone z (by simpa using hbefore z hmem)
      exact ⟨j, hj⟩
    rw [marshalZones, hzones]
    rfl

end Decoding

end GvisorTapVsock.Types
