import Scad.FilePath
import Scad.Uri

/-!
# Scad.Uri.File

Uris of files, both ways. A uri of any scheme names a file if its path is hierarchical and it has no
host but `localhost`; a file has a uri if its path is absolute.
-/

namespace Scad
namespace Uri

open Text

/-- Whether a path ends with a letter and a colon or bar, which is a drive and takes a slash. -/
def endsWithDrive (bytes : List UInt8) : Bool :=
  match bytes.reverse with
  | mark :: letter :: _ :: _ =>
    (mark == 58 || mark == 124) && (Char.ofNat letter.toNat).isAlpha && decide (letter.toNat < 128)
  | _ => false

/-- Whether a uri names no host, or the machine it is read on. -/
def isLocal (u : Uri) : Bool := u.host.all fun host => host == .domain "localhost".toList

/-- The path of the file that a uri names. -/
def toFilePath? (u : Uri) : Option FilePath :=
  match u.path with
  | '/' :: _ =>
    if u.isLocal then
      let bytes := decodeText u.path
      some ⟨if endsWithDrive bytes then bytes ++ [FilePath.slash] else bytes⟩
    else none
  | _ => none

/-- The step of a path as a segment of a uri. -/
def componentText : FilePath.Component → List Char
  | .root => []
  | .current => ['.']
  | .up => ['.', '.']
  | .name bytes => encodeBytes Escape.segment bytes

/-- The uri of the file with an absolute path. -/
def ofFilePath? (p : FilePath) : Option Uri :=
  if p.isAbsolute then
    let path := p.components.tail.flatMap fun c => '/' :: componentText c
    some ⟨"file".toList, true, [], none, none, if path.isEmpty then ['/'] else path, none, none⟩
  else none

end Uri
end Scad
