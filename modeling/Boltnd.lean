import Boltnd.Wire
import Boltnd.Rpc.ReplyPath
import Boltnd.OnionMsg.Path
import Boltnd.OnionMsg.Messenger
import Boltnd.Rpc.Subscribe
import Boltnd.Rpc.Subscriptions
import Boltnd.Rpc.Shutdown
import Boltnd.Rpc.Routing
