import Folio.Files
import Folio.Font
import Folio.Font.Face
import Folio.Log

/-!
# Where fonts come from

The font of a job is the file of its face in a directory, or Helvetica where there is no directory
or no such file. A file that is there but cannot be read as a font is an error.
-/

set_option autoImplicit false

namespace Folio

/-- Where the fonts of jobs come from. -/
inductive FontSource where
  | builtin
  | directory (path : String)
deriving DecidableEq

namespace FontSource

/-- What is reported when Helvetica stands in for a face. -/
def builtinLog (face : Face) : Log :=
  if face = .general then []
  else Log.warn (face.fileName ++
    " is not bundled, using Helvetica; characters outside WinAnsi will print as '?'")

/-- The font in a file, known by the stem of its name unless it says otherwise. -/
def ofFile (files : Files) (path : String) (name : String) : Except RenderError Font :=
  match files.read path with
  | .error e => .error (.font s!"Failed to read {path}: {e.message}")
  | .ok data =>
    match TrueType.ofBytes data (String.ofList (Path.stem name.toList)) with
    | .error e => .error (.font s!"{path}: {e.message}")
    | .ok font => .ok (.trueType font)

/-- The font for a face, and what is reported about it. -/
def load (source : FontSource) (files : Files) (face : Face) : Except RenderError Font × Log :=
  match source with
  | .builtin => (.ok .helvetica, builtinLog face)
  | .directory folder =>
    let path := String.ofList (Path.join folder.toList face.fileName.toList)
    if files.isFile path then
      match ofFile files path face.fileName with
      | .error e => (.error e, [])
      | .ok font => (.ok font, Log.info s!"Using font {font.baseFont} from {path}")
    else (.ok .helvetica, Log.warn s!"Font file {path} not found" ++ builtinLog face)

end FontSource

end Folio
