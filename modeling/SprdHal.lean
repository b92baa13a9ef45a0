import SprdHal.Engmode.Chunking
import SprdHal.Engmode.Forward
import SprdHal.Engmode.Parse
import SprdHal.Engmode.Recover
import SprdHal.Nvitem.Atomic
import SprdHal.Nvitem.Crash
import SprdHal.Nvitem.Delivery
import SprdHal.Nvitem.Fragment
import SprdHal.Nvitem.Repair
import SprdHal.Nvitem.Response
import SprdHal.Nvitem.Saver
import SprdHal.Nvitem.Scan
import SprdHal.Camera.Msg
import SprdHal.Camera.Linear
import SprdHal.Hwc.Ownership
import SprdHal.Hwc.Layer
import SprdHal.Hwc.LayerList
import SprdHal.Hwc.Kept
import SprdHal.Hwc.Revisit
import SprdHal.Hwc.Shown
import SprdHal.Lib.Rects
import SprdHal.Lib.Reorder
import SprdHal.Hwc.FullScreen
import SprdHal.Lib.Rounding
import SprdHal.Hwc.ScaleTwice
import SprdHal.Hwc.ComposeList
import SprdHal.Hwc.Stacking
import SprdHal.Hwc.ComposerThread
import SprdHal.Audio.MuxPcm
import SprdHal.Audio.NvFile
import SprdHal.Audio.NvBounds
import SprdHal.Audio.NvWrite
import SprdHal.Audio.MuxOwnership
import SprdHal.Audio.MuxRead
import SprdHal.Audio.MuxWrite
import SprdHal.Lib.RandomAccess
import SprdHal.Jpeg.WriteStream
import SprdHal.Lib.Canonical
import SprdHal.Jpeg.HuffTable
import SprdHal.Jpeg.HuffLanes
import SprdHal.Jpeg.Framing
import SprdHal.Jpeg.Header
import SprdHal.Jpeg.RoundTrip
import SprdHal.Exif.Info
import SprdHal.Exif.Writer
import SprdHal.Exif.Insert
import SprdHal.Exif.Layout
import SprdHal.Exif.Tags
import SprdHal.Exif.Directories
import SprdHal.Exif.Reader
import SprdHal.Exif.RoundTrip
import SprdHal.Secril.Client
import SprdHal.Secril.Tokens
import SprdHal.Secril.Dispatch
import SprdHal.Lib.Calls
import SprdHal.Lib.Frames
import SprdHal.Lib.Triple
import SprdHal.Ril.Handshake
import SprdHal.Ril.LoadImage
import SprdHal.Ril.ModemRecovery
import SprdHal.Ril.Refnotify
import SprdHal.Ril.RefnotifyReads
import SprdHal.Ril.SipcSelect
import SprdHal.Isp.Diag
import SprdHal.Isp.Preview
import SprdHal.Isp.Capture
import SprdHal.Isp.Tune
import SprdHal.Isp.AppMsg
import SprdHal.Isp.ParamText
import SprdHal.Isp.ParamFile
import SprdHal.Nvitem.Bounds
import SprdHal.Nvitem.Checksum
import SprdHal.Engmode.Crc16
import SprdHal.Engmode.UserHandle
import SprdHal.Engmode.Complete
import SprdHal.Engmode.Reads
import SprdHal.Engmode.ProductNv
import SprdHal.Engmode.MacFiles
import SprdHal.Engmode.BtWifi
import SprdHal.Engmode.CpApProc
import SprdHal.Camera.Trim
import SprdHal.Camera.FaceDetect
import SprdHal.Engmode.FileOper
import SprdHal.Camera.CaptureBuf
import SprdHal.Camera.CaptureMem
import SprdHal.Lib.Regions
import SprdHal.Camera.CaptureLayout
import SprdHal.Exif.Stores
import SprdHal.Exif.Trace
import SprdHal.Exif.Plan
import SprdHal.Exif.Honest
import SprdHal.Exif.Disjoint
import SprdHal.Jpeg.Access
import SprdHal.Jpeg.Segments
import SprdHal.Jpeg.Bounded
import SprdHal.Jpeg.Bounds
import SprdHal.Audio.NvLine
import SprdHal.Audio.NvEqLine
import SprdHal.Audio.NvStep
import SprdHal.Audio.NvIndex
import SprdHal.Audio.NvRoundTrip
import SprdHal.Audio.MuxWrite
import SprdHal.Lib.Requests
import SprdHal.Jpeg.Reading
import SprdHal.Jpeg.Delivery
import SprdHal.Dither.Block
import SprdHal.Dither.Image
import SprdHal.Dither.Lanes
import SprdHal.Gralloc.Alloc
import SprdHal.Gralloc.Planes
import SprdHal.Lib.Bitmask
import SprdHal.Lib.Keyed
import SprdHal.Gralloc.Pages
import SprdHal.Gralloc.Display
import SprdHal.Gralloc.Mappings
import SprdHal.Camera.ParseRect
import SprdHal.Camera.AreaText
import SprdHal.Camera.FocusAreas
import SprdHal.Audio.RecTables
import SprdHal.Audio.RecEq
import SprdHal.Audio.RecEqFormats
import SprdHal.Audio.RecLcf
import SprdHal.Audio.RecF1f1
import SprdHal.Isp.ImgData
import SprdHal.Isp.Scale
import SprdHal.Isp.DownEffects
import SprdHal.Isp.ParamScan
import SprdHal.Isp.ParamHeap
import SprdHal.Nvitemd.MarkDirty
import SprdHal.Engmode.FileRead
import SprdHal.Calibration.RawPacket
import SprdHal.Calibration.RawStat
import SprdHal.Calibration.LensGain
import SprdHal.Calibration.LensCorrection
import SprdHal.Lib.Buffer
import SprdHal.Calibration.LensStat
