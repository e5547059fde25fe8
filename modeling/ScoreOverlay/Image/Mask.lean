import Std.Data.HashSet
import ScoreOverlay.Image.Basic
import ScoreOverlay.Image.Paint

namespace ScoreOverlay.Image

variable {kind : PixelKind}

/-- The canvas that covers the picture. -/
def canvas (image : Image kind) : Canvas := ⟨image.width, image.height⟩

/-- The pixels that outlines enclose or run through, given the origin from which the picture's
    pixels are counted. -/
def visible (image : Image kind) (origin : Point) (outlines : List Outline) :
    Checked (List (Int × Int)) := do
  let painted ← outlines.mapM fun o => do
    Outline.paint image.canvas (← o.mapM (·.relativeTo origin))
  return painted.flatten.map fun p => (p.x, p.y)

/-- Makes every pixel opaque black that is not in the list. -/
def keepOnly (image : Image kind) (positions : List (Int × Int)) : Image kind :=
  let kept := Std.HashSet.ofList positions
  image.mapPixels fun x y p =>
    if kept.contains ((x : Int), (y : Int)) then p else Pixel.blank

/-- Makes every pixel opaque black that no outline encloses or runs through. -/
def masked (image : Image kind) (origin : Point) (outlines : List Outline) :
    Checked (Image kind) := do
  return image.keepOnly (← image.visible origin outlines)

end ScoreOverlay.Image
