import Neroshop.Encryptor.RoundTrip
import Neroshop.Encryptor.KeyFiles
import Neroshop.Encryptor.Files
import Neroshop.Encryptor.Resources
import Neroshop.Wallet.Payments
import Neroshop.Wallet.Sellers
import Neroshop.Wallet.Files
import Neroshop.Db.Documents
import Neroshop.Daemon.Dispatch
import Neroshop.Daemon.Progress
import Neroshop.Daemon.Snapshots
import Neroshop.Daemon.Main
import Neroshop.Net.Channel
import Neroshop.Net.MainClient
import Neroshop.Net.Heartbeat
import Neroshop.Net.Server
import Neroshop.Converter.Quotes
import Neroshop.Validator.Register
import Neroshop.Validator.Credentials
import Neroshop.Qr.Png
import Neroshop.Cart.Change
import Neroshop.Cart.Ledger
import Neroshop.Cart.Pointers
import Neroshop.Validator.Names
import Neroshop.Validator.Passwords
import Neroshop.Validator.Emails
import Neroshop.Validator.Prehash
import Neroshop.Db.Termination
import Neroshop.Wallet.Paths
import Neroshop.Qr.Failure
import Neroshop.Qr.Scan
import Neroshop.Qr.Resources
import Neroshop.Accessors
import Neroshop.Cli.Shell
import Neroshop.Message.Children
import Neroshop.Wallet.Notices
