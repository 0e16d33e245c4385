import Radius.Standard.Attribute
import Radius.Standard.Enumeration
import Radius.Standard.PacketCode

/-!
The dictionary of the standards: the top-level attributes, the extended vendor-specific containers
and fragmentation attributes (RFC 6929, RFC 7499), the named values and the packet codes. It has no
vendor attributes; a document adds them.
-/

namespace Radius

namespace DefinitionTable

/-- The vendor container in each extended attribute; the last two extended attributes are long. -/
def vendorContainers : List AttributeDefinition :=
  [(241, "1"), (242, "2"), (243, "3"), (244, "4"), (245, "5"), (246, "6")].map
    fun (head, number) =>
      ⟨(TypePath.topLevel head).child 26, "Extended-Vendor-Specific-" ++ number, .evs,
        if 245 ≤ head then .longExtended else .extended, none⟩

def fragmentationAttributes : List AttributeDefinition :=
  [⟨(TypePath.topLevel 241).child 1, "Frag-Status", .integer, .extended, none⟩,
    ⟨(TypePath.topLevel 241).child 2, "Proxy-State-Length", .integer, .extended, none⟩]

def standard : DefinitionTable where
  attributes := StandardAttribute.all.map StandardAttribute.definition ++ vendorContainers ++
    fragmentationAttributes
  tlvs := []
  values := Enumeration.standard.flatMap Enumeration.entries
  packets := PacketCode.all.map PacketCode.definition

end DefinitionTable

end Radius
