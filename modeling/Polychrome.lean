import Polychrome.Preload.NameFilter
import Polychrome.Preload.Recursion
import Polychrome.Preload.Containment
import Polychrome.Preload.ExclusionPattern
import Polychrome.Preload.Completeness
import Polychrome.Preload.Order
import Polychrome.Preload.Traversal
import Polychrome.CommandLine.Reading
import Polychrome.Manager.Deadlines
import Polychrome.Manager.BackOff
import Polychrome.Manager.Listener
import Polychrome.System.StartUp
import Polychrome.System.Drain
import Polychrome.System.Capacity
import Polychrome.System.DescriptorAccount
import Polychrome.Library.FileSystem
import Polychrome.Library.Pcre
import Polychrome.Library.PhpValue
import Polychrome.Request.Response
import Polychrome.Request.WriteOutput
import Polychrome.System.Orphans
import Polychrome.System.Refinement
import Polychrome.Manager.Shutdown
import Polychrome.Manager.Notification
import Polychrome.Zygote.Ownership
import Polychrome.Client.Answer
import Polychrome.Client.Environment
import Polychrome.Client.Exchange
import Polychrome.Request.Variables
import Polychrome.Zygote.Preloading
import Polychrome.CommandLine.Writing
import Polychrome.Preload.Survey
