import PinnedSync.Basic
import PinnedSync.InitAssert
import PinnedSync.Poison
import PinnedSync.Sys.Mutex
import PinnedSync.Sys.RwLock
import PinnedSync.Mutex
import PinnedSync.Increment
import PinnedSync.Barrier
import PinnedSync.Condvar
import PinnedSync.RwLock
import PinnedSync.BarrierWait
import PinnedSync.WaitWhile
import PinnedSync.RwLockData
import PinnedSync.MutexData
