import RuleFilter.Digest.Sha256
import RuleFilter.Schema.Basic

/-!
# Fingerprints of schemas

A fingerprint tells schemas apart that share a cache. It is the digest of an encoding in which every
property ends with a record separator and its name, type and allowed values are kept apart by unit
separators.
-/

namespace RuleFilter

def recordSeparator : String := "\x1e"

def unitSeparator : String := "\x1f"

def Property.encoding (property : Property) : String :=
  property.name ++ unitSeparator ++ property.type.name ++
    String.join ((property.allowed.getD []).map (unitSeparator ++ ·)) ++ recordSeparator

def encodeProperties (properties : List Property) : String :=
  String.join (properties.map Property.encoding)

def Schema.fingerprint (schema : Schema) : List UInt8 :=
  Sha256.digest (encodeProperties schema.properties).toUTF8

def blankFingerprint : List UInt8 :=
  List.replicate 32 0

end RuleFilter
