import HardwareIntel.Mmgr.Shutdown
import HardwareIntel.Mmgr.AckRounds
import HardwareIntel.Mmgr.ModemUp
import HardwareIntel.Mmgr.Escalation
import HardwareIntel.Mmgr.ClientLibrary
import HardwareIntel.Mmgr.Session
import HardwareIntel.VideoDecoder.ReferenceMarking
import HardwareIntel.Camera.MessageQueue
import HardwareIntel.MultiDisplay.Composer
import HardwareIntel.Hwc.PlaneAccounting
import HardwareIntel.Hwc.LayerList
import HardwareIntel.RemoteParameter.Exchange
import HardwareIntel.Isv.FramePairing
import HardwareIntel.Bluetooth.FirmwareDownload
import HardwareIntel.Topaz.SeiMessages
import HardwareIntel.Topaz.HeaderAgreement
import HardwareIntel.Topaz.GopPeriods
import HardwareIntel.PsbVideo.ObjectLookup
import HardwareIntel.Topaz.CodedBufferLayout
import HardwareIntel.VideoDecoder.OutputOrder
import HardwareIntel.Camera.BracketRecovery
import HardwareIntel.FuelGauge.SoftwareGauge
import HardwareIntel.FuelGauge.SavedConfig
import HardwareIntel.Vpp.RenderList
import HardwareIntel.MetadataBuffer.Sharing
import HardwareIntel.VideoEncoder.PackedSei
import HardwareIntel.Camera.RepadYuv
import HardwareIntel.Camera.ValidateParameters
import HardwareIntel.Camera.Nv12Rotation
import HardwareIntel.Camera.PreviewConversions
import HardwareIntel.MultiDisplay.ListenerTable
import HardwareIntel.Asf.IndexSearch
import HardwareIntel.Asf.ReassemblyRuns
import HardwareIntel.Keymaster.SoftKey
import HardwareIntel.Keymaster.FirmwareSafety
import HardwareIntel.Mmgr.Timeout
import HardwareIntel.Mmgr.PayloadReads
import HardwareIntel.AudioRoute.Matching
import HardwareIntel.AudioRoute.Survival
import HardwareIntel.AudioStream.Preprocessing
import HardwareIntel.Conversion.Reconfiguration
import HardwareIntel.Conversion.Remapping
import HardwareIntel.Omx.Queue
import HardwareIntel.Mmgr.ClientTable
import HardwareIntel.Omx.BufferRegistration
import HardwareIntel.Omx.PortDefinition
import HardwareIntel.Omx.MarkPropagation
import HardwareIntel.Omx.RetainOrder
import HardwareIntel.AudioRoute.PortGroups
import HardwareIntel.Parameter.KeyValuePairs

/-!
# Hardware support: the modem manager, the audio routing and the media components
-/
