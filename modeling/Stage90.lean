import Stage90.Media.CowOverlay
import Stage90.Media.CowGeometry
import Stage90.Media.CowPrepare
import Stage90.Media.LadderDoor
import Stage90.Smem.ProbeContained
import Stage90.Smem.Totals
import Stage90.Storage.ArrayBounds
import Stage90.Storage.CsdVendor
import Stage90.Storage.Provenance
import Stage90.Regions.MemoryRegions
import Stage90.Crypto.CbcInPlace
import Stage90.DeviceTree.Lookup
import Stage90.DeviceTree.Robustness
import Stage90.Irq.EnableLine
import Stage90.Irq.Preemption
import Stage90.Irq.Registry
import Stage90.Irq.StormBudget
import Stage90.Console.KvRoundTrip
import Stage90.Console.RingSafety
import Stage90.Console.OsAccounts
import Stage90.Console.OsRefusals
import Stage90.MachO.LoaderContained
import Stage90.MachO.ProbeExact
import Stage90.MachO.Faithful
import Stage90.MachO.StagingAccess
import Stage90.MachO.FixtureAgrees
import Stage90.Mmu.FullPmapPromises
import Stage90.Mmu.TteAgrees
import Stage90.Mmu.WalkRefines
import Stage90.Mmu.Sections
import Stage90.Usb.ControlTransfer
import Stage90.Usb.BulkIn
import Stage90.Usb.Drained
import Stage90.Usb.Verdict
import Stage90.Usb.LadderVerdict
import Stage90.Asm.Preserves
import Stage90.Bootimg.RoundTrip
import Stage90.DeviceTree.ReplayPlane
import Stage90.Linker.Predict
import Stage90.Mmu.AbtRecorders
import Stage90.Mmu.LeafWitness
import Stage90.Entry.Jump
import Stage90.Irq.GicProbe
import Stage90.Cache.SetWay
import Stage90.Irq.PcSampling
import Stage90.Mmu.PageWindow
import Stage90.Media.Capacity
import Stage90.Lib.Rounds
import Stage90.Linker.Closure
import Stage90.Lib.UniformCost
import Stage90.Callwalk.Graph
import Stage90.Callwalk.Walk
import Stage90.Callwalk.Guards
import Stage90.Lib.PyText
import Stage90.Lib.Trajectory
import Stage90.Callwalk.Listing
import Stage90.Callwalk.StraightLine
import Stage90.Callwalk.Report
import Stage90.Census.EnableWindows
import Stage90.Staging.RootMount
import Stage90.DeviceTree.FlattenedReaders
import Stage90.Census.ResponseOrder
import Stage90.XnuConfig.Devices
import Stage90.XnuConfig.Generators
import Stage90.XnuConfig.Conditions
import Stage90.Time.Conversions
import Stage90.Cache.Range
import Stage90.Storage.Label
import Stage90.Time.Decrementer
import Stage90.Console.RecordWriter
import Stage90.Usb.Bringup
import Stage90.Asm.SpAlignment
import Stage90.Staging.BootPath
import Stage90.Irq.BoardHandler
import Stage90.Media.Residual
import Stage90.Media.FailedWrite
import Stage90.Media.DirectWrite
import Stage90.Media.ArenaCount
import Stage90.Crypto.CbcStandard
