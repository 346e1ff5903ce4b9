/-!
# Scad.Uri.Fault

Why a text is no uri, and how that is said.
-/

namespace Scad
namespace Uri

/-- Why a text is no uri. -/
inductive Fault where
  /-- There is no scheme. -/
  | relative
  | emptyHost
  /-- A domain name without an ASCII form. -/
  | domainName
  /-- A character that no host may hold. -/
  | hostCharacter
  | port
  | ipv4
  | ipv6
  deriving DecidableEq, Repr

/-- The text of a fault. -/
def Fault.message : Fault → String
  | .relative => "relative URL without a base"
  | .emptyHost => "empty host"
  | .domainName => "invalid international domain name"
  | .hostCharacter => "invalid domain character"
  | .port => "invalid port number"
  | .ipv4 => "invalid IPv4 address"
  | .ipv6 => "invalid IPv6 address"

end Uri
end Scad
