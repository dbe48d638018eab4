/-!
# Font sizes

The sizes that output is set in. A size that is requested is brought into their range, so that a
sanitized size stays as it is.
-/

set_option autoImplicit false

namespace Folio

/-- The font size when none is requested or the requested one is unusable. -/
def defaultFontSize : Float32 := 12

/-- The least font size. -/
def minFontSize : Float32 := 6

/-- The greatest font size. -/
def maxFontSize : Float32 := 36

/-- A requested font size brought into range; one that is no positive number counts as none. -/
def sanitizeFontSize (requested : Float32) : Float32 :=
  let size := if requested.isFinite && 0 < requested then requested else defaultFontSize
  if size < minFontSize then minFontSize else if maxFontSize < size then maxFontSize else size

end Folio
