import Rigel.Bits
import Rigel.Clock
import Rigel.BeamProjection
import Rigel.BlitCompletion
import Rigel.SlotCoherence
import Rigel.BusRun
import Rigel.CopperStrobe
import Rigel.DeadlineProgress
import Rigel.BusSame
import Rigel.BeamTrace
import Rigel.Tod
import Rigel.StepEvents
import Rigel.IrqFlow
import Rigel.CiaLine
import Rigel.AudioIrq
import Rigel.DiskTransfer
import Rigel.BlitFrozen
import Rigel.CopperExec
import Rigel.TableShape
import Rigel.BusQuery
import Rigel.LineRun
import Rigel.SpritePairs
import Rigel.BitplaneAdvance
import Rigel.CalmRun
import Rigel.IrqPriority
import Rigel.IrqLedger
import Rigel.CiaCauses
import Rigel.StepLedger
import Rigel.SaveLoad
import Rigel.DmaconStatus
import Rigel.Ring
import Rigel.SerialOrder
import Rigel.DriveRouting
import Rigel.DisplayRun
import Rigel.WindowLines
import Rigel.Compositor
import Rigel.PixelFormats
import Rigel.BlitSlots
import Rigel.BlitBalance
import Rigel.LineClock
import Rigel.DeadlineSound
import Rigel.SpriteBands
import Rigel.MfmTrack
import Rigel.ByteLane
import Rigel.ChipAddress
import Rigel.WriteLog
import Rigel.CopyBlit
import Rigel.CopyTransfer
import Rigel.AreaFill
import Rigel.SingleDot
import Rigel.Bresenham
import Rigel.LineDraw
import Rigel.VertbDistance
import Rigel.WaitDeadline
import Rigel.RateDivider
import Rigel.Harness
import Rigel.ClockIntegrator
import Rigel.AtaIde
import Rigel.AtaPhase
import Rigel.TearFree
import Rigel.Countdown
import Rigel.BeamStepping
import Rigel.SerialStepping
import Rigel.AudioStepping
import Rigel.AudioBlocks
import Rigel.BlitTriggers
import Rigel.CopperWait
import Rigel.SpriteLines
import Rigel.DiskStream
import Rigel.FetchSchedule
import Rigel.RefreshSlots
import Rigel.ChipMirror
import Rigel.DriveInvariant
import Rigel.MfmLegal
import Rigel.MfmSizes
import Rigel.Rtc
import Rigel.SerialOutput
import Rigel.TimerPins
import Rigel.TimerReload
import Rigel.TimerRun
import Rigel.TimerStepping
import Rigel.TodSet
import Rigel.WindowValid
import Rigel.ExportSpans
import Rigel.Scatter
import Rigel.Playfields
import Rigel.SpriteOverlay
import Rigel.Collisions
import Rigel.Gregorian
import Rigel.RtcBus
import Rigel.RtcDials
import Rigel.RtcSetting
import Rigel.RtcHosts
import Rigel.Hunk
import Rigel.HunkBounds
import Rigel.HunkSafe
import Rigel.HunkGrammar
import Rigel.HunkComplete
import Rigel.HunkSilent
import Rigel.Leads
import Rigel.HunkExecutable
import Rigel.HunkMemory
import Rigel.HunkSegments
import Rigel.HunkLoad
import Rigel.TimeConversion
import Rigel.PaletteRun
import Rigel.AtaDisk
import Rigel.AtaSectors
import Rigel.AtaRoundTrip
import Rigel.PictureCut
import Rigel.AttachedSprites
import Rigel.CdSectors
import Rigel.CdSense
import Rigel.Keyboard
import Rigel.Zorro
import Rigel.Autoconfig
import Rigel.HunkBoot
import Rigel.FloppyRead
import Rigel.KickRom
import Rigel.Peek
import Rigel.CpuLevel
import Rigel.Controllers
import Rigel.AudioHeard
