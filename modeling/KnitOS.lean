import KnitOS.Console.CommandBridge
import KnitOS.Console.SerialInput
import KnitOS.Fs.Attributes
import KnitOS.Fs.DirectoryMaps
import KnitOS.Fs.JournalCrash
import KnitOS.Fs.LinkDepth
import KnitOS.Fs.Listing
import KnitOS.Fs.Superblock
import KnitOS.Fs.Truncation
import KnitOS.Heap.Clients
import KnitOS.Net.ConnectionTable
import KnitOS.Net.Handshake
import KnitOS.Net.HttpFiles
import KnitOS.Net.HttpKeepAlive
import KnitOS.Net.OrderlyClose
import KnitOS.Net.Receive
import KnitOS.Net.ReceiveWindow
import KnitOS.Net.SequenceShift
import KnitOS.Net.SocketIsolation
import KnitOS.Net.TcpProgress
import KnitOS.Net.TcpRetransmit
import KnitOS.Net.TcpStream
import KnitOS.Net.Udp
import KnitOS.Scheduling.Sleep
import KnitOS.Ssh.PacketReads
import KnitOS.Storage.Faults
import KnitOS.Tasks.Dup2
import KnitOS.Tasks.Kill
import KnitOS.Tasks.PipeRing
import KnitOS.Tasks.PipeRuns
import KnitOS.Users.PasswdFile
import KnitOS.Users.Passwords
import KnitOS.Utils.Find
