import Cantian.Dcs.Content
import Cantian.Recovery.RcySet
import Cantian.Recovery.PageOrder
import Cantian.Archive.Clean
import Cantian.Remaster.Rebalance
import Cantian.Ckpt.TornPage
import Cantian.Archive.RedoGap
import Cantian.Standby.Snapshot
import Cantian.Ckpt.RedoKept
import Cantian.Cms.BestGroup
import Cantian.Cms.GccAtomic
import Cantian.Sequence.Cycle
import Cantian.Sequence.Unique
import Cantian.Dls.ClaimOwn
import Cantian.Dcs.ClaimSlot
import Cantian.Smon.Complete
import Cantian.Drc.EntryRefines
import Cantian.Drc.Edp
import Cantian.Ckpt.EdpMerge
import Cantian.Drc.Migrate
import Cantian.Dec.AddCorrect
import Cantian.Dec.Scale
import Cantian.Heap.ParalRange
import Cantian.Heap.RevertSpace
import Cantian.Plan.ScanRange
import Cantian.Cr.Waits
import Cantian.Part.HashPart
import Cantian.Part.RangePart
import Cantian.Mes.WaitingRoom
import Cantian.Json.MergePatch
