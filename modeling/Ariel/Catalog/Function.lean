import Ariel.Json.Value
import Ariel.Text.Ascii
import Ariel.Text.Blank

/-!
# Functions

The functions that a query can call, by category. Names of functions and categories are looked up
in any ASCII letter case.
-/

namespace Ariel.Catalog

open Ariel.Text

/-- A function, with the way it is called. -/
structure Function where
  name : String
  usage : String
  description : String
  deriving DecidableEq, Repr

/-- A category of functions, with the label that is shown and a short key. -/
structure FunctionCategory where
  label : String
  key : String
  functions : List Function
  deriving DecidableEq, Repr

/-- Functions that calculate and format. -/
def calculationFunctions : List Function := [
  ⟨"BASE64", "BASE64(value)", "Returns Base64 encoded string of binary data"⟩,
  ⟨"CONCAT", "CONCAT(str1, str2, ...)", "Concatenates multiple strings into one"⟩,
  ⟨"DATEFORMAT", "DATEFORMAT(timestamp, 'format')",
    "Formats timestamp to readable form. Format: yyyy-MM-dd HH:mm:ss"⟩,
  ⟨"DOUBLE", "DOUBLE(value)", "Converts value to double data type"⟩,
  ⟨"LONG", "LONG(value)", "Converts value to long integer"⟩,
  ⟨"LOWER", "LOWER(string)", "Returns lowercase version of string"⟩,
  ⟨"UPPER", "UPPER(string)", "Returns uppercase version of string"⟩,
  ⟨"NOW", "NOW()", "Returns current time in milliseconds since epoch"⟩,
  ⟨"PARSEDATETIME", "PARSEDATETIME('time reference')",
    "Parses time reference (e.g., '1 hour ago', 'now')"⟩,
  ⟨"PARSETIMESTAMP", "PARSETIMESTAMP('datetime', 'format')",
    "Converts datetime string to UNIX epoch"⟩,
  ⟨"REPLACEALL", "REPLACEALL(string, 'regex', 'replacement')", "Replace all regex matches"⟩,
  ⟨"REPLACEFIRST", "REPLACEFIRST(string, 'regex', 'replacement')", "Replace first regex match"⟩,
  ⟨"STR", "STR(value)", "Converts any value to string"⟩,
  ⟨"STRLEN", "STRLEN(string)", "Returns length of string"⟩,
  ⟨"STRPOS", "STRPOS(string, 'substring')",
    "Returns position of substring (0-indexed, -1 if not found)"⟩,
  ⟨"SUBSTRING", "SUBSTRING(string, start, length)", "Extracts substring from string"⟩,
  ⟨"UTF8", "UTF8(payload)", "Converts byte array to UTF-8 string"⟩]

/-- Functions over the rows of a group. -/
def aggregateFunctions : List Function := [
  ⟨"COUNT", "COUNT(*) or COUNT(field)", "Returns count of rows"⟩,
  ⟨"SUM", "SUM(field)", "Returns sum of numeric field"⟩,
  ⟨"AVG", "AVG(field)", "Returns average of numeric field"⟩,
  ⟨"MIN", "MIN(field)", "Returns minimum value"⟩,
  ⟨"MAX", "MAX(field)", "Returns maximum value"⟩,
  ⟨"FIRST", "FIRST(field)", "Returns first value in aggregate"⟩,
  ⟨"LAST", "LAST(field)", "Returns last value in aggregate"⟩,
  ⟨"UNIQUECOUNT", "UNIQUECOUNT(field)", "Returns count of unique values"⟩,
  ⟨"STDEV", "STDEV(field)", "Returns sample standard deviation"⟩,
  ⟨"STDEVP", "STDEVP(field)", "Returns population standard deviation"⟩]

/-- Functions that look up what an identifier stands for. -/
def retrievalFunctions : List Function := [
  ⟨"ASSETHOSTNAME", "ASSETHOSTNAME(ip)", "Returns hostname for IP from asset database"⟩,
  ⟨"ASSETPROPERTY", "ASSETPROPERTY('property', ip)", "Returns asset property value"⟩,
  ⟨"ASSETUSER", "ASSETUSER(ip)", "Returns username associated with IP"⟩,
  ⟨"NETWORKNAME", "NETWORKNAME(ip)", "Returns network name from hierarchy"⟩,
  ⟨"FULLNETWORKNAME", "FULLNETWORKNAME(ip)", "Returns full network path from hierarchy"⟩,
  ⟨"APPLICATIONNAME", "APPLICATIONNAME(applicationid)", "Returns application name"⟩,
  ⟨"CATEGORYNAME", "CATEGORYNAME(category)", "Returns category name"⟩,
  ⟨"DOMAINNAME", "DOMAINNAME(domainid)", "Returns domain name"⟩,
  ⟨"HOSTNAME", "HOSTNAME(processorid)", "Returns processor hostname"⟩,
  ⟨"LOGSOURCENAME", "LOGSOURCENAME(logsourceid)", "Returns log source name"⟩,
  ⟨"LOGSOURCETYPENAME", "LOGSOURCETYPENAME(devicetype)", "Returns log source type name"⟩,
  ⟨"PROCESSORNAME", "PROCESSORNAME(processorid)", "Returns processor name"⟩,
  ⟨"PROTOCOLNAME", "PROTOCOLNAME(protocolid)", "Returns protocol name (TCP, UDP, etc.)"⟩,
  ⟨"QIDNAME", "QIDNAME(qid)", "Returns event name for QID"⟩,
  ⟨"QIDDESCRIPTION", "QIDDESCRIPTION(qid)", "Returns event description for QID"⟩,
  ⟨"RULENAME", "RULENAME(ruleid)", "Returns rule name"⟩]

/-- Functions on the location of an address. -/
def geographicFunctions : List Function := [
  ⟨"GEO::LOOKUP", "GEO::LOOKUP(ip, 'property')", "Returns MaxMind location data as JSON"⟩,
  ⟨"GEO::LOOKUP_TEXT", "GEO::LOOKUP_TEXT(ip, 'property')",
    "Returns location data as text. Properties: city_name, country_name, continent_name"⟩,
  ⟨"GEO::DISTANCE", "GEO::DISTANCE(ip1, ip2)", "Returns distance between IPs in kilometers"⟩]

/-- Functions on reference collections. -/
def referenceFunctions : List Function := [
  ⟨"REFERENCESETCONTAINS", "REFERENCESETCONTAINS('SetName', value)",
    "Returns true if value is in reference set"⟩,
  ⟨"REFERENCEMAP", "REFERENCEMAP('MapName', key)", "Returns value from reference map"⟩,
  ⟨"REFERENCETABLE", "REFERENCETABLE('TableName', 'column', key)",
    "Returns column value from reference table"⟩]

/-- Functions that narrow down what is returned. -/
def filterFunctions : List Function := [
  ⟨"INCIDR", "INCIDR('cidr', ip)",
    "Returns true if IP is in CIDR range. Example: INCIDR('192.168.0.0/16', sourceip)"⟩,
  ⟨"INOFFENSE", "INOFFENSE(offenseid)", "Returns true if event belongs to specified offense"⟩,
  ⟨"OFFENSE_TIME", "OFFENSE_TIME(offenseid)", "Limits query to offense timeframe"⟩]

/-- The categories, in display order. -/
def functionCategories : List FunctionCategory := [
  ⟨"Calculation & Formatting", "calculation", calculationFunctions⟩,
  ⟨"Aggregation", "aggregation", aggregateFunctions⟩,
  ⟨"Data Retrieval", "retrieval", retrievalFunctions⟩,
  ⟨"Geographic", "geographic", geographicFunctions⟩,
  ⟨"Reference Data", "reference", referenceFunctions⟩,
  ⟨"Filter", "filter", filterFunctions⟩]

/-- The functions of a category, given by its key or its label. An unknown category has none. -/
def functionsOf (category : String) : List Function :=
  let name := trim category
  match functionCategories.find? fun c =>
      sameIgnoringCase c.key name || sameIgnoringCase c.label name with
  | none => []
  | some c => c.functions

/-- Every function, category by category. -/
def functions : List Function :=
  functionCategories.flatMap FunctionCategory.functions

/-- Whether a name is the name of a function, in any ASCII letter case. -/
def isKnownFunction (name : String) : Bool :=
  functions.any fun f => sameIgnoringCase f.name name

/-- The names of the aggregate functions. -/
def aggregateNames : List String :=
  aggregateFunctions.map Function.name

/-- A function as a record. -/
def Function.toJson (function : Function) : Json :=
  .object [("name", .string function.name), ("description", .string function.description),
    ("example", .string function.usage)]

end Ariel.Catalog
