import SweetHome.Lib.Run
import SweetHome.Lib.FdTable
import SweetHome.LibretroDroid
import SweetHome.Ownership
import SweetHome.CoreCalls
import SweetHome.SaveStates
import SweetHome.VirtualFiles
import SweetHome.VfsClose
import SweetHome.VfsStreams
import SweetHome.Lib.Fifo
import SweetHome.Audio
import SweetHome.Lib.Round
import SweetHome.FpsSync
import SweetHome.Lib.Texture
import SweetHome.ShaderManager
import SweetHome.ES3Utils
import SweetHome.ImageRenderers
import SweetHome.ShaderPasses
import SweetHome.Rewind
import SweetHome.RewindTimeline
import SweetHome.Lib.Window
import SweetHome.RewindHistory
import SweetHome.Environment
import SweetHome.FailedStarts
import SweetHome.ManualSaves
import SweetHome.Recreation
import SweetHome.SaveWrites
import SweetHome.SlotStore
import SweetHome.CoreOptions
import SweetHome.RumbleDeliveries
import SweetHome.Geometry
import SweetHome.Input
import SweetHome.GLThread
import SweetHome.MenuPause
import SweetHome.Serialization
import SweetHome.TemporaryAudioBuffer
import SweetHome.Rendering
import SweetHome.DuplicateFrames
import SweetHome.ContextLoss
import SweetHome.LinearResampler
import SweetHome.RateControl
import SweetHome.FramePacing
import SweetHome.Lib.Box
import SweetHome.Lib.Triangles
import SweetHome.Letterbox
import SweetHome.Touch
import SweetHome.AmbientBackground
import SweetHome.ReadOnlyFrames
import SweetHome.HardwareFrames
import SweetHome.AudioDevice
import SweetHome.OptionParsing
import SweetHome.OptionStore
import SweetHome.Lib.Binary32
import SweetHome.AspectRatio
import SweetHome.Sram
import SweetHome.LoadDialog
import SweetHome.Lib.Ledger
import SweetHome.GLObjects
import SweetHome.Lib.Glsl
import SweetHome.EdgeFlags
import SweetHome.EdgeWeights
import SweetHome.EdgeSearch
import SweetHome.UpscaleBlend
import SweetHome.KonamiCode
import SweetHome.GameZone
import SweetHome.Screenshot
import SweetHome.PadTable
import SweetHome.AssetCopies
import SweetHome.MicrophoneInterface
import SweetHome.TouchGestures
import SweetHome.InputRange
import SweetHome.Lib.BitStream
import SweetHome.Lib.Deflate
import SweetHome.ZlibCompress
import SweetHome.Lib.Png
import SweetHome.PngWriter
import SweetHome.Lib.RingBuffer
import SweetHome.FifoBuffer
import SweetHome.FifoCalls
import SweetHome.Lib.Averages
import SweetHome.VideoBackground
import SweetHome.Lib.Pull
import SweetHome.FilterStream
import SweetHome.SoundPath
import SweetHome.Lib.Interpolation
import SweetHome.ScreenFilters
import SweetHome.UpscaleCut
