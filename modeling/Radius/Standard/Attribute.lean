import Radius.Definition

/-!
The attributes of the standards (RFC 2865, 2866, 2868, 2869, 3162, 3579, 6911 and 6929): their type
octets, names, declared types and filters.
-/

namespace Radius

structure StandardAttribute where
  type : UInt8
  name : String
  dataType : DataType
  filter : Option Filter
deriving DecidableEq

namespace StandardAttribute

def path (entry : StandardAttribute) : TypePath := .topLevel entry.type

def userName : StandardAttribute := ⟨1, "User-Name", .text, none⟩

def userPassword : StandardAttribute := ⟨2, "User-Password", .string, some .userPassword⟩

def chapPassword : StandardAttribute := ⟨3, "CHAP-Password", .string, none⟩

def nasIpAddress : StandardAttribute := ⟨4, "NAS-IP-Address", .ipv4Addr, none⟩

def nasIdentifier : StandardAttribute := ⟨32, "NAS-Identifier", .text, none⟩

def acctStatusType : StandardAttribute := ⟨40, "Acct-Status-Type", .enum, none⟩

def tunnelPassword : StandardAttribute :=
  ⟨69, "Tunnel-Password", .taggedString, some .tunnelPassword⟩

def eapMessage : StandardAttribute := ⟨79, "EAP-Message", .concat, none⟩

def messageAuthenticator : StandardAttribute := ⟨80, "Message-Authenticator", .string, none⟩

def clear (type : UInt8) (name : String) (dataType : DataType) : StandardAttribute :=
  ⟨type, name, dataType, none⟩

def all : List StandardAttribute :=
  [userName,
    userPassword,
    chapPassword,
    nasIpAddress,
    clear 5 "NAS-Port" .integer,
    clear 6 "Service-Type" .enum,
    clear 7 "Framed-Protocol" .enum,
    clear 8 "Framed-IP-Address" .ipv4Addr,
    clear 9 "Framed-IP-Netmask" .ipv4Addr,
    clear 10 "Framed-Routing" .enum,
    clear 11 "Filter-Id" .text,
    clear 12 "Framed-MTU" .integer,
    clear 13 "Framed-Compression" .enum,
    clear 14 "Login-IP-Host" .ipv4Addr,
    clear 15 "Login-Service" .enum,
    clear 16 "Login-TCP-Port" .integer,
    clear 18 "Reply-Message" .text,
    clear 19 "Callback-Number" .text,
    clear 20 "Callback-Id" .text,
    clear 22 "Framed-Route" .text,
    clear 23 "Framed-IPX-Network" .integer,
    clear 24 "State" .string,
    clear 25 "Class" .string,
    clear 26 "Vendor-Specific" .vsa,
    clear 27 "Session-Timeout" .integer,
    clear 28 "Idle-Timeout" .integer,
    clear 29 "Termination-Action" .enum,
    clear 30 "Called-Station-Id" .text,
    clear 31 "Calling-Station-Id" .text,
    nasIdentifier,
    clear 33 "Proxy-State" .string,
    clear 34 "Login-LAT-Service" .text,
    clear 35 "Login-LAT-Node" .text,
    clear 36 "Login-LAT-Group" .text,
    clear 37 "Framed-AppleTalk-Link" .integer,
    clear 38 "Framed-AppleTalk-Network" .integer,
    clear 39 "Framed-AppleTalk-Zone" .text,
    acctStatusType,
    clear 41 "Acct-Delay-Time" .integer,
    clear 42 "Acct-Input-Octets" .integer,
    clear 43 "Acct-Output-Octets" .integer,
    clear 44 "Acct-Session-Id" .text,
    clear 45 "Acct-Authentic" .enum,
    clear 46 "Acct-Session-Time" .integer,
    clear 47 "Acct-Input-Packets" .integer,
    clear 48 "Acct-Output-Packets" .integer,
    clear 49 "Acct-Terminate-Cause" .enum,
    clear 50 "Acct-Multi-Session-Id" .text,
    clear 51 "Acct-Link-Count" .integer,
    clear 52 "Acct-Input-Gigawords" .integer,
    clear 53 "Acct-Output-Gigawords" .integer,
    clear 55 "Event-Timestamp" .time,
    clear 60 "CHAP-Challenge" .string,
    clear 61 "NAS-Port-Type" .enum,
    clear 62 "Port-Limit" .integer,
    clear 63 "Login-LAT-Port" .text,
    clear 64 "Tunnel-Type" .taggedInteger,
    clear 65 "Tunnel-Medium-Type" .taggedInteger,
    clear 66 "Tunnel-Client-Endpoint" .optionalTaggedText,
    clear 67 "Tunnel-Server-Endpoint" .optionalTaggedText,
    tunnelPassword,
    clear 77 "Connect-Info" .text,
    eapMessage,
    messageAuthenticator,
    clear 81 "Tunnel-Private-Group-Id" .optionalTaggedText,
    clear 82 "Tunnel-Assignment-Id" .optionalTaggedText,
    clear 83 "Tunnel-Preference" .taggedInteger,
    clear 85 "Acct-Interim-Interval" .integer,
    clear 87 "NAS-Port-Id" .text,
    clear 88 "Framed-Pool" .text,
    clear 90 "Tunnel-Client-Auth-Id" .optionalTaggedText,
    clear 91 "Tunnel-Server-Auth-Id" .optionalTaggedText,
    clear 95 "NAS-IPv6-Address" .ipv6Addr,
    clear 96 "Framed-Interface-Id" .ifid,
    clear 97 "Framed-IPv6-Prefix" .ipv6Prefix,
    clear 98 "Login-IPv6-Host" .ipv6Addr,
    clear 99 "Framed-IPv6-Route" .text,
    clear 100 "Framed-IPv6-Pool" .text,
    clear 168 "Framed-IPv6-Address" .ipv6Addr,
    clear 241 "Extended-Attribute-1" .extended,
    clear 242 "Extended-Attribute-2" .extended,
    clear 243 "Extended-Attribute-3" .extended,
    clear 244 "Extended-Attribute-4" .extended,
    clear 245 "Extended-Attribute-5" .longExtended,
    clear 246 "Extended-Attribute-6" .longExtended]

def ofType? (type : UInt8) : Option StandardAttribute := all.find? fun entry => entry.type = type

def between (least greatest : UInt8) : List StandardAttribute :=
  all.filter fun entry => least ≤ entry.type ∧ entry.type ≤ greatest

def definition (entry : StandardAttribute) : AttributeDefinition :=
  ⟨entry.path, entry.name, entry.dataType, Carrier.ofTopLevel entry.dataType, entry.filter⟩

end StandardAttribute

end Radius
