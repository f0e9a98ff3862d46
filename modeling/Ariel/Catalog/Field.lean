import Ariel.Json.Value
import Ariel.Query.Table

/-!
# Fields

The fields of the two tables, with their data types, and the groups in which they are shown.
-/

namespace Ariel.Catalog

open Ariel.Query

/-- A field of a table. -/
structure Field where
  name : String
  dataType : String
  description : String
  deriving DecidableEq, Repr

/-- Fields that are shown together. -/
structure FieldGroup where
  name : String
  fields : List String
  deriving DecidableEq, Repr

/-- The fields of events. -/
def eventFields : List Field := [
  ⟨"qid", "INTEGER", "QRadar event ID (use with QIDNAME function)"⟩,
  ⟨"qidEventId", "INTEGER", "Original event ID from the log source"⟩,
  ⟨"category", "INTEGER", "Low-level category ID (use with CATEGORYNAME)"⟩,
  ⟨"logsourceid", "INTEGER", "Log source ID (use with LOGSOURCENAME)"⟩,
  ⟨"devicetype", "INTEGER", "Device type ID (use with LOGSOURCETYPENAME)"⟩,
  ⟨"sourceip", "IP", "Source IP address"⟩,
  ⟨"destinationip", "IP", "Destination IP address"⟩,
  ⟨"sourceport", "INTEGER", "Source port number"⟩,
  ⟨"destinationport", "INTEGER", "Destination port number"⟩,
  ⟨"sourcemac", "STRING", "Source MAC address"⟩,
  ⟨"destinationmac", "STRING", "Destination MAC address"⟩,
  ⟨"protocolid", "INTEGER", "Protocol ID (use with PROTOCOLNAME)"⟩,
  ⟨"username", "STRING", "Username associated with the event"⟩,
  ⟨"identityip", "IP", "Identity IP address"⟩,
  ⟨"identityhostname", "STRING", "Identity hostname"⟩,
  ⟨"starttime", "TIMESTAMP", "Event start time (milliseconds since epoch)"⟩,
  ⟨"endtime", "TIMESTAMP", "Event end time"⟩,
  ⟨"devicetime", "TIMESTAMP", "Time reported by the device"⟩,
  ⟨"eventcount", "INTEGER", "Number of events aggregated"⟩,
  ⟨"magnitude", "INTEGER", "Event magnitude (1-10)"⟩,
  ⟨"severity", "INTEGER", "Event severity (1-10)"⟩,
  ⟨"credibility", "INTEGER", "Event credibility (1-10)"⟩,
  ⟨"relevance", "INTEGER", "Event relevance (1-10)"⟩,
  ⟨"payload", "BLOB", "Raw event payload (use UTF8 function to read)"⟩,
  ⟨"utf8payload", "STRING", "UTF-8 decoded payload"⟩,
  ⟨"sourcev6", "IPv6", "Source IPv6 address"⟩,
  ⟨"destinationv6", "IPv6", "Destination IPv6 address"⟩,
  ⟨"sourcegeographiclocation", "STRING", "Source geographic location"⟩,
  ⟨"destinationgeographiclocation", "STRING", "Destination geographic location"⟩,
  ⟨"processorid", "INTEGER", "Event processor ID"⟩,
  ⟨"collectorid", "INTEGER", "Event collector ID"⟩,
  ⟨"domainid", "INTEGER", "Domain ID"⟩,
  ⟨"ruleid", "INTEGER", "Rule ID that triggered"⟩,
  ⟨"hasoffense", "BOOLEAN", "Whether event is part of an offense"⟩]

/-- The fields of flows. -/
def flowFields : List Field := [
  ⟨"sourcebytes", "LONG", "Bytes sent from source"⟩,
  ⟨"destinationbytes", "LONG", "Bytes sent to destination"⟩,
  ⟨"sourcepackets", "LONG", "Packets from source"⟩,
  ⟨"destinationpackets", "LONG", "Packets to destination"⟩,
  ⟨"totalbytes", "LONG", "Total bytes transferred"⟩,
  ⟨"totalpackets", "LONG", "Total packets transferred"⟩,
  ⟨"sourceip", "IP", "Source IP address"⟩,
  ⟨"destinationip", "IP", "Destination IP address"⟩,
  ⟨"sourceport", "INTEGER", "Source port number"⟩,
  ⟨"destinationport", "INTEGER", "Destination port number"⟩,
  ⟨"protocolid", "INTEGER", "Protocol ID"⟩,
  ⟨"applicationid", "INTEGER", "Application ID (use with APPLICATIONNAME)"⟩,
  ⟨"applicationname", "STRING", "Application name"⟩,
  ⟨"sourceasn", "INTEGER", "Source Autonomous System Number"⟩,
  ⟨"destinationasn", "INTEGER", "Destination Autonomous System Number"⟩,
  ⟨"sourcepayload", "BLOB", "Source payload data"⟩,
  ⟨"destinationpayload", "BLOB", "Destination payload data"⟩,
  ⟨"starttime", "TIMESTAMP", "Flow start time"⟩,
  ⟨"endtime", "TIMESTAMP", "Flow end time"⟩,
  ⟨"firstpackettime", "TIMESTAMP", "Time of first packet"⟩,
  ⟨"lastpackettime", "TIMESTAMP", "Time of last packet"⟩,
  ⟨"sourcegeographiclocation", "STRING", "Source geographic location"⟩,
  ⟨"destinationgeographiclocation", "STRING", "Destination geographic location"⟩,
  ⟨"flowdirection", "STRING", "Flow direction (L2L, L2R, R2L, R2R)"⟩,
  ⟨"flowsourceid", "INTEGER", "Flow source ID"⟩,
  ⟨"processorid", "INTEGER", "Processor ID"⟩,
  ⟨"domainid", "INTEGER", "Domain ID"⟩]

/-- The groups of event fields. -/
def eventFieldGroups : List FieldGroup := [
  ⟨"Network", [
    "sourceip", "destinationip", "sourceport", "destinationport", "sourcemac", "destinationmac",
    "protocolid", "sourcev6", "destinationv6"]⟩,
  ⟨"Identity", [
    "username", "identityip", "identityhostname"]⟩,
  ⟨"Time", [
    "starttime", "endtime", "devicetime"]⟩,
  ⟨"Event Info", [
    "qid", "qidEventId", "category", "logsourceid", "devicetype", "eventcount", "magnitude",
    "severity", "credibility", "relevance"]⟩,
  ⟨"Payload", [
    "payload", "utf8payload"]⟩,
  ⟨"Geographic", [
    "sourcegeographiclocation", "destinationgeographiclocation"]⟩,
  ⟨"Processing", [
    "processorid", "collectorid", "domainid", "ruleid", "hasoffense"]⟩]

/-- The groups of flow fields. -/
def flowFieldGroups : List FieldGroup := [
  ⟨"Traffic Volume", [
    "sourcebytes", "destinationbytes", "sourcepackets", "destinationpackets", "totalbytes",
    "totalpackets"]⟩,
  ⟨"Network", [
    "sourceip", "destinationip", "sourceport", "destinationport", "protocolid"]⟩,
  ⟨"Application", [
    "applicationid", "applicationname"]⟩,
  ⟨"ASN", [
    "sourceasn", "destinationasn"]⟩,
  ⟨"Payload", [
    "sourcepayload", "destinationpayload"]⟩,
  ⟨"Time", [
    "starttime", "endtime", "firstpackettime", "lastpackettime"]⟩,
  ⟨"Geographic", [
    "sourcegeographiclocation", "destinationgeographiclocation"]⟩,
  ⟨"Processing", [
    "flowdirection", "flowsourceid", "processorid", "domainid"]⟩]

/-- The fields of a table, in reference order. -/
def fields : Table → List Field
  | .events => eventFields
  | .flows => flowFields

/-- The groups of the fields of a table. -/
def fieldGroups : Table → List FieldGroup
  | .events => eventFieldGroups
  | .flows => flowFieldGroups

/-- A field as a record. -/
def Field.toJson (field : Field) : Json :=
  .object [("name", .string field.name), ("description", .string field.description),
    ("data_type", .string field.dataType)]

/-- A group of fields as a record. -/
def FieldGroup.toJson (group : FieldGroup) : Json :=
  .object [("name", .string group.name), ("fields", .strings group.fields)]

end Ariel.Catalog
