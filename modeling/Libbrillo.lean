import Libbrillo.MessageLoop.TaskId
import Libbrillo.MessageLoop.State
import Libbrillo.MessageLoop.Operations
import Libbrillo.MessageLoop.Registration
import Libbrillo.MessageLoop.Invariant
import Libbrillo.MessageLoop.TaskLife
import Libbrillo.MessageLoop.Lifecycle
import Libbrillo.MessageLoop.RunOnce
import Libbrillo.FileUtils.FileSystem
import Libbrillo.FileUtils.AtomicWrite
import Libbrillo.FileUtils.TouchFile
import Libbrillo.FileUtils.WriteFile
import Libbrillo.FileUtils.Observation.Loops
import Libbrillo.FileUtils.Observation.AtomicWrite
import Libbrillo.FileUtils.Observation.WriteFile
import Libbrillo.FileUtils.Observation.TouchFile
