import MvpApi.Domain.Errors

/-!
# Re-encoding images

What the storage of media makes of the bytes of an upload. The library of images is a parameter:
the size that the header of an image tells, the image itself once it is decoded, and how it is
scaled and encoded. What is around it is the program's: an image is refused by its header, before
it is decoded, if it has too many pixels, and after that by its format.
-/

set_option autoImplicit false

namespace MvpApi

/-- The exceptions of the library of images. -/
inductive PillowError where
  | unidentifiedImage
  | decompressionBomb
  | decompressionBombWarning
  | os
  | syntax'
  | other (message : String)
deriving DecidableEq, Repr

/-- The library of images. -/
structure Pillow where
  Image : Type
  /-- The width and the height that the header tells, if the data is that of an image. -/
  probe : List UInt8 → Except PillowError (ℕ × ℕ)
  /-- The decoded image. -/
  load : List UInt8 → Except PillowError Image
  format : Image → Option String
  /-- The image as it is to be seen, with or without transparency. -/
  normalize : Image → Except PillowError Image
  /-- The image scaled down to fit into a square. -/
  thumbnail : ℕ → Image → Image
  /-- The image cropped to a square. -/
  fit : ℕ → Image → Image
  saveWebp : Image → Except PillowError (List UInt8)

/-- A library to try the program with, which takes all data for images of one pixel. -/
def Pillow.sample : Pillow where
  Image := List UInt8
  probe _ := .ok (1, 1)
  load data := .ok data
  format _ := some "PNG"
  normalize image := .ok image
  thumbnail _ image := image
  fit _ image := image
  saveWebp image := .ok image

def squareSize : ℕ := 256
def maxImageSide : ℕ := 2048

/-- The largest image that is decoded. -/
def maxPixels : ℕ := 40000000

def imageFormats : List String := ["JPEG", "PNG", "WEBP", "GIF"]

def invalidImage : DomainError := .invalid "The upload is not a valid image"

/-- An exception that is raised while an upload is opened. -/
def PillowError.refused : PillowError → Failure
  | .other message => .other message
  | _ => .domain invalidImage

/-- An exception that nobody handles. -/
def PillowError.raised : PillowError → Failure
  | .other message => .other message
  | _ => .other "OSError"

namespace Pillow

variable (pillow : Pillow)

/-- Decode an upload whatever it claimed to be; only real images get through. -/
def openImage (data : List UInt8) : Except Failure pillow.Image := do
  let (width, height) ← (pillow.probe data).mapError PillowError.refused
  if maxPixels < width * height then .error (.domain invalidImage)
  else
    let image ← (pillow.load data).mapError PillowError.refused
    if (pillow.format image).all (· ∉ imageFormats) then
      .error (.domain (.unsupportedMediaType "Unsupported image type"))
    else (pillow.normalize image).mapError PillowError.raised

def webp (image : pillow.Image) : Except Failure (List UInt8) :=
  (pillow.saveWebp image).mapError PillowError.raised

/-- An upload in full, and as a thumbnail. -/
def renderImage (thumbnailSize : ℕ) (data : List UInt8) :
    Except Failure (List UInt8 × List UInt8) := do
  let image := pillow.thumbnail maxImageSide (← pillow.openImage data)
  let full ← pillow.webp image
  let thumb ← pillow.webp (pillow.thumbnail thumbnailSize image)
  return (full, thumb)

/-- An upload as a square. -/
def renderSquare (data : List UInt8) : Except Failure (List UInt8) := do
  let image ← pillow.openImage data
  pillow.webp (pillow.fit squareSize image)

end Pillow

end MvpApi
