import LinearCalc.Plot.Image

set_option autoImplicit false

/-! # Image files

A drawing as a PNG file. The pixels are stored as they are, in blocks without compression.
-/

namespace LinearCalc.Png

/-! ## Bytes and checksums -/

/-- A number as four bytes, the most significant first. -/
def bytes32 (n : UInt32) : ByteArray :=
  ⟨#[(n >>> 24).toUInt8, (n >>> 16).toUInt8, (n >>> 8).toUInt8, n.toUInt8]⟩

/-- A number as two bytes, the least significant first. -/
def bytes16 (n : UInt16) : ByteArray := ⟨#[n.toUInt8, (n >>> 8).toUInt8]⟩

/-- One step of the division by the polynomial of the cyclic redundancy check. -/
def checkBit (c : UInt32) : UInt32 :=
  if c &&& 1 == 1 then (c >>> 1) ^^^ 0xEDB88320 else c >>> 1

def checkTable : Array UInt32 :=
  (Array.range 256).map (fun n => Nat.repeat checkBit 8 n.toUInt32)

def cyclicCheck (bytes : ByteArray) : UInt32 :=
  bytes.foldl
    (fun c b => ((checkTable[((c ^^^ b.toUInt32) &&& 0xFF).toNat]?).getD 0) ^^^ (c >>> 8))
    0xFFFFFFFF ^^^ 0xFFFFFFFF

def sumModulus : UInt32 := 65521

/-- The checksum over the pixels: the sum of the bytes, and the sum of these sums. -/
def byteSum (bytes : ByteArray) : UInt32 :=
  let (a, b) := bytes.foldl
    (fun (a, b) byte =>
      let a := (a + byte.toUInt32) % sumModulus
      (a, (b + a) % sumModulus))
    ((1, 0) : UInt32 × UInt32)
  b <<< 16 ||| a

/-! ## Blocks and chunks -/

def blockSize : Nat := 65535

/-- Bytes in blocks, of which the last one is marked. -/
def blocks (bytes : ByteArray) : ByteArray :=
  let count := max 1 ((bytes.size + blockSize - 1) / blockSize)
  (List.range count).foldl
    (fun out i =>
      let block := bytes.extract (i * blockSize) ((i + 1) * blockSize)
      let size := block.size.toUInt16
      out.push (if i + 1 = count then 1 else 0) ++ bytes16 size ++ bytes16 (~~~size) ++ block)
    ByteArray.empty

/-- Bytes in the frame of a compressed stream. -/
def stream (bytes : ByteArray) : ByteArray :=
  (⟨#[0x78, 0x01]⟩ : ByteArray) ++ blocks bytes ++ bytes32 (byteSum bytes)

/-- A part of the file: its length, its kind, what it holds, and a check. -/
def chunk (kind : String) (content : ByteArray) : ByteArray :=
  let named := kind.toUTF8 ++ content
  bytes32 content.size.toUInt32 ++ named ++ bytes32 (cyclicCheck named)

/-- The bytes that every file begins with. -/
def signature : ByteArray := ⟨#[0x89, 0x50, 0x4E, 0x47, 0x0D, 0x0A, 0x1A, 0x0A]⟩

/-- Width and height, and eight bits for each of red, green and blue. -/
def header (width height : Nat) : ByteArray :=
  bytes32 width.toUInt32 ++ bytes32 height.toUInt32 ++ (⟨#[8, 2, 0, 0, 0]⟩ : ByteArray)

/-! ## Pixels -/

/-- Adds a row of pixels, which begins with a zero since it is not filtered. -/
def pushRow (scene : Scene) (width row : Nat) (out : ByteArray) : ByteArray :=
  (List.range width).foldl
    (fun out column =>
      let colour := scene.colourAt ⟨column.toFloat + 0.5, row.toFloat + 0.5⟩
      ((out.push colour.red).push colour.green).push colour.blue)
    (out.push 0)

/-- The pixels of a scene, row by row from the top. -/
def pixels (scene : Scene) (width height : Nat) : ByteArray :=
  (List.range height).foldl (fun out row => pushRow scene width row out) ByteArray.empty

end LinearCalc.Png

namespace LinearCalc

/-- A drawing as a file, if it has a scene. -/
def Drawing.png? (d : Drawing) : Option ByteArray :=
  let canvas := d.canvas.toFloats
  let width := canvas.width.toUInt32.toNat
  let height := canvas.height.toUInt32.toNat
  d.scene?.map (fun scene =>
    Png.signature ++ Png.chunk "IHDR" (Png.header width height) ++
      Png.chunk "IDAT" (Png.stream (Png.pixels scene width height)) ++
      Png.chunk "IEND" ByteArray.empty)

end LinearCalc
