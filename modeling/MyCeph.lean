import MyCeph.City.Windows
import MyCeph.Crush.BucketChange
import MyCeph.Crush.Dangling
import MyCeph.Crush.Domains
import MyCeph.Crush.Drain
import MyCeph.Crush.DrawOrder
import MyCeph.Crush.Finish
import MyCeph.Crush.GiveUp
import MyCeph.Crush.Globals
import MyCeph.Crush.InOrder
import MyCeph.Crush.Init
import MyCeph.Crush.Layout
import MyCeph.Crush.LnSpec
import MyCeph.Crush.Load
import MyCeph.Crush.MoreReplicas
import MyCeph.Crush.Movement
import MyCeph.Crush.PooledRuns
import MyCeph.Crush.Schedule
import MyCeph.Crush.Separation
import MyCeph.Crush.Subtree
import MyCeph.Crush.Termination
import MyCeph.Crush.Weight
import MyCeph.Crush.Window
import MyCeph.Experiment.Runs
import MyCeph.Messages.Format
import MyCeph.Pool.Create
import MyCeph.Pool.Destroy
import MyCeph.Pool.Drains
import MyCeph.Pool.Producers
import MyCeph.Pool.Queue
import MyCeph.Pool.Slots
import MyCeph.Pool.Wakeup
import MyCeph.Upload.Broken
import MyCeph.Upload.Client
import MyCeph.Upload.Concurrent
import MyCeph.Upload.RoundTrip
import MyCeph.Upload.SendLoop
import MyCeph.Upload.Serial
