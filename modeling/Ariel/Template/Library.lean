import Ariel.Template.Basic

/-!
# The template library

Ready-made queries, category by category.
-/

namespace Ariel

namespace Template

/-- Queries about logging in. -/
def authenticationTemplates : List Template := [
  { name := "Failed Login Attempts"
    category := .authentication
    description := "Find failed authentication attempts"
    query := lines [
      "SELECT sourceip, username, COUNT(*) as attempts,",
      "LOGSOURCENAME(logsourceid) as logsource",
      "FROM events",
      "WHERE QIDNAME(qid) ILIKE '%fail%login%'",
      "   OR QIDNAME(qid) ILIKE '%authentication%fail%'",
      "GROUP BY sourceip, username",
      "ORDER BY attempts DESC",
      "LIMIT 100",
      "LAST 24 HOURS"]
    params := ["time_range"] },
  { name := "Successful Logins from Multiple IPs"
    category := .authentication
    description := "Users logging in from multiple source IPs"
    query := lines [
      "SELECT username, UNIQUECOUNT(sourceip) as unique_ips,",
      "COUNT(*) as login_count",
      "FROM events",
      "WHERE QIDNAME(qid) ILIKE '%success%login%'",
      "  AND username IS NOT NULL",
      "GROUP BY username",
      "HAVING unique_ips > 3",
      "ORDER BY unique_ips DESC",
      "LAST 7 DAYS"]
    params := ["threshold", "time_range"] },
  { name := "After Hours Authentication"
    category := .authentication
    description := "Login events outside business hours (customize hours)"
    query := lines [
      "SELECT DATEFORMAT(starttime, 'yyyy-MM-dd HH:mm') as time,",
      "sourceip, username, QIDNAME(qid) as event",
      "FROM events",
      "WHERE (QIDNAME(qid) ILIKE '%login%' OR QIDNAME(qid) ILIKE '%authentication%')",
      "  AND username IS NOT NULL",
      "ORDER BY starttime DESC",
      "LAST 24 HOURS"]
    params := ["time_range"] },
  { name := "Privileged Account Activity"
    category := .authentication
    description := "Activity by admin/root accounts"
    query := lines [
      "SELECT DATEFORMAT(starttime, 'yyyy-MM-dd HH:mm') as time,",
      "sourceip, username, QIDNAME(qid) as event,",
      "LOGSOURCENAME(logsourceid) as source",
      "FROM events",
      "WHERE username ILIKE '%admin%'",
      "   OR username ILIKE '%root%'",
      "   OR username ILIKE '%administrator%'",
      "ORDER BY starttime DESC",
      "LIMIT 500",
      "LAST 24 HOURS"]
    params := ["username_pattern", "time_range"] }]

/-- Queries about traffic. -/
def networkTemplates : List Template := [
  { name := "Top Talkers by Bytes"
    category := .network
    description := "Find hosts generating most network traffic"
    query := lines [
      "SELECT sourceip,",
      "SUM(sourcebytes + destinationbytes) as total_bytes,",
      "SUM(sourcepackets + destinationpackets) as total_packets,",
      "UNIQUECOUNT(destinationip) as unique_destinations",
      "FROM flows",
      "GROUP BY sourceip",
      "ORDER BY total_bytes DESC",
      "LIMIT 50",
      "LAST 24 HOURS"]
    params := ["time_range"] },
  { name := "External RDP Connections"
    category := .network
    description := "RDP (port 3389) connections from external IPs"
    query := lines [
      "SELECT sourceip, destinationip,",
      "DATEFORMAT(starttime, 'yyyy-MM-dd HH:mm') as time,",
      "SUM(sourcebytes) as bytes",
      "FROM flows",
      "WHERE destinationport = 3389",
      "  AND NOT INCIDR('10.0.0.0/8', sourceip)",
      "  AND NOT INCIDR('172.16.0.0/12', sourceip)",
      "  AND NOT INCIDR('192.168.0.0/16', sourceip)",
      "GROUP BY sourceip, destinationip",
      "ORDER BY bytes DESC",
      "LAST 24 HOURS"]
    params := ["port", "time_range"] },
  { name := "SSH Connections"
    category := .network
    description := "All SSH (port 22) connections"
    query := lines [
      "SELECT sourceip, destinationip,",
      "COUNT(*) as connections,",
      "SUM(sourcebytes) as total_bytes",
      "FROM flows",
      "WHERE destinationport = 22",
      "GROUP BY sourceip, destinationip",
      "ORDER BY connections DESC",
      "LIMIT 100",
      "LAST 24 HOURS"]
    params := ["time_range"] },
  { name := "Suspicious Port Activity"
    category := .network
    description := "Traffic on commonly exploited ports"
    query := lines [
      "SELECT destinationport, sourceip, destinationip,",
      "COUNT(*) as connections",
      "FROM flows",
      "WHERE destinationport IN (4444, 5555, 6666, 1337, 31337, 8080, 8443)",
      "GROUP BY destinationport, sourceip, destinationip",
      "ORDER BY connections DESC",
      "LAST 7 DAYS"]
    params := ["ports", "time_range"] },
  { name := "Large Data Transfers"
    category := .network
    description := "Connections with high data volume (potential exfiltration)"
    query := lines [
      "SELECT sourceip, destinationip, destinationport,",
      "SUM(sourcebytes) as bytes_out,",
      "SUM(destinationbytes) as bytes_in",
      "FROM flows",
      "WHERE sourcebytes > 100000000",
      "GROUP BY sourceip, destinationip, destinationport",
      "ORDER BY bytes_out DESC",
      "LAST 24 HOURS"]
    params := ["byte_threshold", "time_range"] }]

/-- Queries about attacks. -/
def threatTemplates : List Template := [
  { name := "High Magnitude Events"
    category := .threat
    description := "Events with high magnitude score"
    query := lines [
      "SELECT DATEFORMAT(starttime, 'yyyy-MM-dd HH:mm') as time,",
      "sourceip, destinationip, username,",
      "QIDNAME(qid) as event_name,",
      "magnitude, severity, credibility,",
      "LOGSOURCENAME(logsourceid) as source",
      "FROM events",
      "WHERE magnitude >= 7",
      "ORDER BY magnitude DESC, starttime DESC",
      "LIMIT 500",
      "LAST 24 HOURS"]
    params := ["magnitude_threshold", "time_range"] },
  { name := "Potential Brute Force"
    category := .threat
    description := "Many failed attempts followed by success from same IP"
    query := lines [
      "SELECT sourceip, destinationip, username,",
      "COUNT(*) as total_events,",
      "LOGSOURCENAME(logsourceid) as source",
      "FROM events",
      "WHERE QIDNAME(qid) ILIKE '%fail%'",
      "   OR QIDNAME(qid) ILIKE '%denied%'",
      "GROUP BY sourceip, destinationip, username",
      "HAVING total_events > 50",
      "ORDER BY total_events DESC",
      "LAST 1 HOURS"]
    params := ["threshold", "time_range"] },
  { name := "Living off the Land Binaries (LOLBins)"
    category := .threat
    description := "Detection of suspicious Windows binary execution"
    query := lines [
      "SELECT sourceip, destinationip,",
      "UTF8(payload) as command",
      "FROM events",
      "WHERE UTF8(payload) IMATCHES"
        ++ " '.*(certutil|bitsadmin|mshta|regsvr32|rundll32|wmic|powershell|cmd)\\.exe.*'",
      "  AND LOGSOURCETYPENAME(devicetype) ILIKE '%Windows%'",
      "GROUP BY sourceip",
      "LAST 24 HOURS"]
    params := ["time_range"] },
  { name := "Potential DNS Tunneling"
    category := .threat
    description := "Unusually long DNS queries (potential data exfiltration)"
    query := lines [
      "SELECT sourceip, destinationip,",
      "COUNT(*) as query_count,",
      "AVG(STRLEN(UTF8(payload))) as avg_query_length",
      "FROM events",
      "WHERE LOGSOURCETYPENAME(devicetype) ILIKE '%DNS%'",
      "  AND STRLEN(UTF8(payload)) > 100",
      "GROUP BY sourceip, destinationip",
      "HAVING query_count > 100",
      "ORDER BY avg_query_length DESC",
      "LAST 24 HOURS"]
    params := ["length_threshold", "time_range"] },
  { name := "Port Scan Detection"
    category := .threat
    description := "Single source connecting to many ports"
    query := lines [
      "SELECT sourceip, destinationip,",
      "UNIQUECOUNT(destinationport) as unique_ports,",
      "COUNT(*) as connection_attempts",
      "FROM flows",
      "GROUP BY sourceip, destinationip",
      "HAVING unique_ports > 20",
      "ORDER BY unique_ports DESC",
      "LAST 1 HOURS"]
    params := ["port_threshold", "time_range"] }]

/-- Queries about the sources themselves. -/
def systemTemplates : List Template := [
  { name := "Events by Log Source"
    category := .system
    description := "Count events per log source"
    query := lines [
      "SELECT LOGSOURCENAME(logsourceid) as log_source,",
      "LOGSOURCETYPENAME(devicetype) as log_type,",
      "COUNT(*) as event_count",
      "FROM events",
      "GROUP BY logsourceid, devicetype",
      "ORDER BY event_count DESC",
      "LIMIT 50",
      "LAST 24 HOURS"]
    params := ["time_range"] },
  { name := "Events by Category"
    category := .system
    description := "Event distribution by category"
    query := lines [
      "SELECT CATEGORYNAME(category) as category,",
      "COUNT(*) as event_count,",
      "UNIQUECOUNT(sourceip) as unique_sources",
      "FROM events",
      "GROUP BY category",
      "ORDER BY event_count DESC",
      "LIMIT 50",
      "LAST 24 HOURS"]
    params := ["time_range"] },
  { name := "Payload Size Analysis"
    category := .system
    description := "Analyze payload sizes by log source"
    query := lines [
      "SELECT LOGSOURCETYPENAME(devicetype) AS log_source,",
      "MIN(STRLEN(UTF8(payload))) AS min_size,",
      "MAX(STRLEN(UTF8(payload))) AS max_size,",
      "AVG(STRLEN(UTF8(payload))) AS avg_size,",
      "COUNT(*) AS event_count",
      "FROM events",
      "GROUP BY devicetype",
      "ORDER BY avg_size DESC",
      "LAST 24 HOURS"]
    params := ["time_range"] },
  { name := "Error Events"
    category := .system
    description := "Find error and failure events"
    query := lines [
      "SELECT DATEFORMAT(starttime, 'yyyy-MM-dd HH:mm') as time,",
      "QIDNAME(qid) as event_name,",
      "sourceip, destinationip,",
      "LOGSOURCENAME(logsourceid) as source,",
      "UTF8(payload) as details",
      "FROM events",
      "WHERE QIDNAME(qid) ILIKE '%error%'",
      "   OR QIDNAME(qid) ILIKE '%fail%'",
      "   OR QIDNAME(qid) ILIKE '%denied%'",
      "ORDER BY starttime DESC",
      "LIMIT 200",
      "LAST 24 HOURS"]
    params := ["time_range"] }]

/-- Queries about Windows hosts. -/
def windowsTemplates : List Template := [
  { name := "Windows Security Events Overview"
    category := .windows
    description := "Summary of Windows security events"
    query := lines [
      "SELECT QIDNAME(qid) as event_name, qid,",
      "COUNT(*) as count",
      "FROM events",
      "WHERE LOGSOURCETYPENAME(devicetype) ILIKE '%Windows Security%'",
      "GROUP BY qid",
      "ORDER BY count DESC",
      "LIMIT 100",
      "LAST 24 HOURS"]
    params := ["time_range"] },
  { name := "Process Creation (Event ID 4688)"
    category := .windows
    description := "New process creation events"
    query := lines [
      "SELECT DATEFORMAT(starttime, 'yyyy-MM-dd HH:mm') as time,",
      "sourceip, username,",
      "UTF8(payload) as details",
      "FROM events",
      "WHERE LOGSOURCETYPENAME(devicetype) ILIKE '%Windows%'",
      "  AND UTF8(payload) ILIKE '%4688%'",
      "ORDER BY starttime DESC",
      "LIMIT 500",
      "LAST 24 HOURS"]
    params := ["time_range"] },
  { name := "Account Logon Events (4624)"
    category := .windows
    description := "Successful Windows logon events"
    query := lines [
      "SELECT DATEFORMAT(starttime, 'yyyy-MM-dd HH:mm') as time,",
      "sourceip, username,",
      "LOGSOURCENAME(logsourceid) as source",
      "FROM events",
      "WHERE LOGSOURCETYPENAME(devicetype) ILIKE '%Windows%'",
      "  AND UTF8(payload) ILIKE '%4624%'",
      "ORDER BY starttime DESC",
      "LIMIT 500",
      "LAST 24 HOURS"]
    params := ["time_range"] },
  { name := "Account Lockouts (4740)"
    category := .windows
    description := "Windows account lockout events"
    query := lines [
      "SELECT DATEFORMAT(starttime, 'yyyy-MM-dd HH:mm') as time,",
      "sourceip, username,",
      "LOGSOURCENAME(logsourceid) as source,",
      "COUNT(*) as lockout_count",
      "FROM events",
      "WHERE LOGSOURCETYPENAME(devicetype) ILIKE '%Windows%'",
      "  AND UTF8(payload) ILIKE '%4740%'",
      "GROUP BY sourceip, username",
      "ORDER BY lockout_count DESC",
      "LAST 24 HOURS"]
    params := ["time_range"] }]

/-- Queries about one case. -/
def investigationTemplates : List Template := [
  { name := "Activity by IP Address"
    category := .investigation
    description := "All events for a specific IP"
    query := lines [
      "SELECT DATEFORMAT(starttime, 'yyyy-MM-dd HH:mm:ss') as time,",
      "QIDNAME(qid) as event_name,",
      "sourceip, destinationip, sourceport, destinationport,",
      "username, magnitude,",
      "LOGSOURCENAME(logsourceid) as source",
      "FROM events",
      "WHERE sourceip = '\x7b\x7bIP_ADDRESS\x7d\x7d'",
      "   OR destinationip = '\x7b\x7bIP_ADDRESS\x7d\x7d'",
      "ORDER BY starttime DESC",
      "LIMIT 1000",
      "LAST 7 DAYS"]
    params := ["ip_address", "time_range"] },
  { name := "Activity by Username"
    category := .investigation
    description := "All events for a specific user"
    query := lines [
      "SELECT DATEFORMAT(starttime, 'yyyy-MM-dd HH:mm:ss') as time,",
      "QIDNAME(qid) as event_name,",
      "sourceip, destinationip,",
      "LOGSOURCENAME(logsourceid) as source,",
      "magnitude",
      "FROM events",
      "WHERE username ILIKE '\x7b\x7bUSERNAME\x7d\x7d'",
      "ORDER BY starttime DESC",
      "LIMIT 1000",
      "LAST 7 DAYS"]
    params := ["username", "time_range"] },
  { name := "Connections Between Two IPs"
    category := .investigation
    description := "Traffic between two specific hosts"
    query := lines [
      "SELECT DATEFORMAT(starttime, 'yyyy-MM-dd HH:mm') as time,",
      "sourceip, destinationip,",
      "sourceport, destinationport,",
      "SUM(sourcebytes) as bytes_out,",
      "SUM(destinationbytes) as bytes_in",
      "FROM flows",
      "WHERE (sourceip = '\x7b\x7bSOURCE_IP\x7d\x7d' AND destinationip ="
        ++ " '\x7b\x7bDEST_IP\x7d\x7d')",
      "   OR (sourceip = '\x7b\x7bDEST_IP\x7d\x7d' AND destinationip ="
        ++ " '\x7b\x7bSOURCE_IP\x7d\x7d')",
      "GROUP BY sourceip, destinationip, sourceport, destinationport",
      "ORDER BY time DESC",
      "LAST 7 DAYS"]
    params := ["source_ip", "dest_ip", "time_range"] },
  { name := "Events in Offense"
    category := .investigation
    description := "All events contributing to an offense"
    query := lines [
      "SELECT DATEFORMAT(starttime, 'yyyy-MM-dd HH:mm:ss') as time,",
      "QIDNAME(qid) as event_name,",
      "sourceip, destinationip, username,",
      "magnitude, credibility,",
      "LOGSOURCENAME(logsourceid) as source",
      "FROM events",
      "WHERE INOFFENSE(\x7b\x7bOFFENSE_ID\x7d\x7d)",
      "ORDER BY starttime ASC"]
    params := ["offense_id"] }]

/-- Every template, category by category. -/
def library : List Template :=
  authenticationTemplates ++ networkTemplates ++ threatTemplates ++ systemTemplates
    ++ windowsTemplates ++ investigationTemplates

/-- The templates of a category, whose name may be in any ASCII letter case. An unknown category
has none. -/
def inCategory (category : String) : List Template :=
  library.filter fun template =>
    Text.sameIgnoringCase template.category.name (Text.trim category)

/-- The template with a name, in any ASCII letter case. -/
def find? (name : String) : Option Template :=
  library.find? fun template => Text.sameIgnoringCase template.name (Text.trim name)

/-- The templates with a text in their name or description, in any letter case. -/
def search (keyword : String) : List Template :=
  let keyword := (Text.lowercase (Text.trim keyword)).toList
  let mentions (text : String) : Bool := Text.occursIn keyword (Text.lowercase text).toList
  library.filter fun template => mentions template.name || mentions template.description

end Template

end Ariel
