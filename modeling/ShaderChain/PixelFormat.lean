import ShaderChain.Named

/-!
# Pixel formats

The formats that a pass may ask for, each with the token that sources and
documents write for it. The tokens name the channels with their widths, then how
a channel's bits are read.
-/

namespace ShaderChain

/-- How the pixels of a render target are stored. -/
inductive PixelFormat where
  | r8G8B8A8Unorm
  | r8Unorm
  | r8Uint
  | r8Sint
  | r8G8Unorm
  | r8G8Uint
  | r8G8Sint
  | r8G8B8A8Uint
  | r8G8B8A8Sint
  | r8G8B8A8Srgb
  | a2B10G10R10UnormPack32
  | a2B10G10R10UintPack32
  | r16Uint
  | r16Sint
  | r16Sfloat
  | r16G16Uint
  | r16G16Sint
  | r16G16Sfloat
  | r16G16B16A16Uint
  | r16G16B16A16Sint
  | r16G16B16A16Sfloat
  | r32Uint
  | r32Sint
  | r32Sfloat
  | r32G32Uint
  | r32G32Sint
  | r32G32Sfloat
  | r32G32B32A32Uint
  | r32G32B32A32Sint
  | r32G32B32A32Sfloat
  deriving DecidableEq, Repr

namespace PixelFormat

def token : PixelFormat → String
  | r8G8B8A8Unorm => "R8G8B8A8_UNORM"
  | r8Unorm => "R8_UNORM"
  | r8Uint => "R8_UINT"
  | r8Sint => "R8_SINT"
  | r8G8Unorm => "R8G8_UNORM"
  | r8G8Uint => "R8G8_UINT"
  | r8G8Sint => "R8G8_SINT"
  | r8G8B8A8Uint => "R8G8B8A8_UINT"
  | r8G8B8A8Sint => "R8G8B8A8_SINT"
  | r8G8B8A8Srgb => "R8G8B8A8_SRGB"
  | a2B10G10R10UnormPack32 => "A2B10G10R10_UNORM_PACK32"
  | a2B10G10R10UintPack32 => "A2B10G10R10_UINT_PACK32"
  | r16Uint => "R16_UINT"
  | r16Sint => "R16_SINT"
  | r16Sfloat => "R16_SFLOAT"
  | r16G16Uint => "R16G16_UINT"
  | r16G16Sint => "R16G16_SINT"
  | r16G16Sfloat => "R16G16_SFLOAT"
  | r16G16B16A16Uint => "R16G16B16A16_UINT"
  | r16G16B16A16Sint => "R16G16B16A16_SINT"
  | r16G16B16A16Sfloat => "R16G16B16A16_SFLOAT"
  | r32Uint => "R32_UINT"
  | r32Sint => "R32_SINT"
  | r32Sfloat => "R32_SFLOAT"
  | r32G32Uint => "R32G32_UINT"
  | r32G32Sint => "R32G32_SINT"
  | r32G32Sfloat => "R32G32_SFLOAT"
  | r32G32B32A32Uint => "R32G32B32A32_UINT"
  | r32G32B32A32Sint => "R32G32B32A32_SINT"
  | r32G32B32A32Sfloat => "R32G32B32A32_SFLOAT"

instance : Named PixelFormat where
  all :=
    [r8G8B8A8Unorm, r8Unorm, r8Uint, r8Sint, r8G8Unorm, r8G8Uint, r8G8Sint, r8G8B8A8Uint,
      r8G8B8A8Sint, r8G8B8A8Srgb, a2B10G10R10UnormPack32, a2B10G10R10UintPack32, r16Uint,
      r16Sint, r16Sfloat, r16G16Uint, r16G16Sint, r16G16Sfloat, r16G16B16A16Uint,
      r16G16B16A16Sint, r16G16B16A16Sfloat, r32Uint, r32Sint, r32Sfloat, r32G32Uint,
      r32G32Sint, r32G32Sfloat, r32G32B32A32Uint, r32G32B32A32Sint, r32G32B32A32Sfloat]
  name := token
  find_name f := by cases f <;> rfl

/-- What a pass renders to unless told otherwise. -/
def native : PixelFormat := r8G8B8A8Unorm

/-- What a pass with gamma encoding renders to. -/
def nativeSrgb : PixelFormat := r8G8B8A8Srgb

/-- What a pass with floating channels renders to. -/
def nativeFloat : PixelFormat := r16G16B16A16Sfloat

end PixelFormat

end ShaderChain
