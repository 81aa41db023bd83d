/-!
# Scheduler options
-/

namespace ShaderChain

/-- How frames are planned. -/
structure SchedulerOptions where
  /-- Never generate mipmaps, whatever the passes ask for. -/
  forceNoMipmaps : Bool
  /-- The largest width and height of a scaled target. -/
  maxTextureDimension : UInt32
  /-- Keep earlier inputs for the passes that ask for them. -/
  history : Bool
  deriving DecidableEq, Repr

namespace SchedulerOptions

def standard : SchedulerOptions := ⟨false, 8192, true⟩

end SchedulerOptions

end ShaderChain
